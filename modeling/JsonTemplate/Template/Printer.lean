import JsonTemplate.Template.Block

/-! The text of a template. Programs stand between backticks, and controls are written with all
their fields. -/

namespace JsonTemplate

/-- The source of a program, marked as such. -/
def Program.quoted (p : Program) : String := "`" ++ p.source ++ "`"

mutual

def Node.text : Node → String
  | .static v => v.displayText
  | .block b => b.text

def Block.text : Block → String
  | .literal v => v.displayText
  | .expression program _ => program.quoted
  | .interpolation template => template.text
  | .sequence items => "[" ++ String.intercalate ", " (Node.textOfItems items) ++ "]"
  | .mapping fields => "\x7b" ++ String.intercalate ", " (Node.textOfFields fields) ++ "\x7d"
  | .conditional condition yes no =>
    "$if: \x7b`$cond`: " ++ condition.quoted ++ ", $then: " ++ yes.text ++ Block.textOfBranch no ++
      "\x7d"
  | .iteration source names body =>
    "$iterate: \x7b`$expr`: " ++ source.quoted ++ ", $index: `" ++ names.index ++ "`, $key: `" ++
      names.key ++ "`, $value: `" ++ names.item ++ "`, $body: " ++ body.text ++ "\x7d"
  | .binding name value body =>
    "$with: \x7b`$expr`: `" ++ name ++ " := " ++ value.source ++ "`, $body: " ++ body.text ++ "\x7d"

def Block.textOfBranch : Option Block → String
  | none => ""
  | some b => ", $else: " ++ b.text

def Node.textOfItems : List Node → List String
  | [] => []
  | n :: rest => n.text :: Node.textOfItems rest

def Node.textOfFields : List (String × Node) → List String
  | [] => []
  | (name, n) :: rest => (name ++ ": " ++ n.text) :: Node.textOfFields rest

end

end JsonTemplate
