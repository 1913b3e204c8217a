import JsonTemplate.Expr.Parser.State

/-! Primary expressions: literals, names, calls, arrays, maps and what stands in parentheses. -/

namespace JsonTemplate.Parser

/-- Items up to a closing symbol, which is left. The comma behind the last item may be missing.
Every round but the last ones consumes a comma, so the tokens left bound the rounds. -/
def itemsFrom {α : Type} (item : Parser α) (close : Symbol) : Nat → Parser (List α)
  | 0 => do fail (.expectedExpression (← kind))
  | rounds + 1 => do
    if (← kind) = .symbol close then pure []
    else
      let first ← item
      if ← eat .comma then
        let others ← itemsFrom item close rounds
        pure (first :: others)
      else pure [first]

/-- Items with commas between them, up to the closing symbol. -/
def items {α : Type} (item : Parser α) (close : Symbol) : Parser (List α) := fun s =>
  itemsFrom item close (s.rest.length + 2) s

/-- The key that a token stands for: a name, a keyword, a string or an integer. -/
def keyText? : Token.Kind → Option String
  | .identifier name => some name
  | .string s => some s
  | .int n => some (Decimal.intText n)
  | .keyword k => some k.text
  | _ => none

def key : Parser String := do
  let found ← kind
  match keyText? found with
  | some text =>
    let _ ← advance
    pure text
  | none => fail (.expectedMapKey found)

/-- A key, a colon and a value. -/
def entry (expression : Parser Expr) : Parser (String × Expr) := do
  let name ← key
  expect .colon
  let value ← expression
  pure (name, value)

/-- The node of a token that is an expression on its own. -/
def literal? (span : Span) : Token.Kind → Option Expr
  | .int n => some (.int span n)
  | .float x => some (.float span x)
  | .string s => some (.string span s)
  | .keyword .true => some (.bool span true)
  | .keyword .false => some (.bool span false)
  | .keyword .nil => some (.nil span)
  | _ => none

def array (expression : Parser Expr) : Parser Expr := do
  let start ← advance
  let elements ← items expression .rightBracket
  expect .rightBracket
  pure (.array (start.merge (← previous)) elements)

def map (expression : Parser Expr) : Parser Expr := do
  let start ← advance
  let entries ← items (entry expression) .rightBrace
  expect .rightBrace
  pure (.map (start.merge (← previous)) entries)

def paren (expression : Parser Expr) : Parser Expr := do
  let start ← advance
  let inner ← expression
  expect .rightParen
  pure (.paren (start.merge (← previous)) inner)

def call (expression : Parser Expr) (name : String) : Parser Expr := do
  let function : Name := ⟨name, ← advance⟩
  expect .leftParen
  let arguments ← items expression .rightParen
  expect .rightParen
  pure (.call (function.span.merge (← previous)) function arguments)

def primary (expression : Parser Expr) : Parser Expr := do
  let found ← kind
  match found with
  | .symbol .leftBracket => array expression
  | .symbol .leftBrace => map expression
  | .symbol .leftParen => paren expression
  | .identifier name =>
    if (← following) = .symbol .leftParen then call expression name
    else pure (.identifier (← advance) name)
  | found =>
    match literal? (← here) found with
    | some e =>
      let _ ← advance
      pure e
    | none => fail (.expectedExpression found)

end JsonTemplate.Parser
