import JsonTemplate.Text.Quoted
import JsonTemplate.Value.Basic

/-! The texts of a value. The JSON text has no blanks. The display text of a string is the
string itself, nil has no text, and arrays and objects are written as JSON. -/

namespace JsonTemplate.Value

/-- Texts with commas between them. -/
def commaSeparated (parts : List String) : String := String.intercalate "," parts

mutual

def jsonText : Value → String
  | .null => "null"
  | .bool b => if b then "true" else "false"
  | .number n => n.jsonText
  | .string s => Text.jsonQuoted s
  | .array items => "[" ++ commaSeparated (jsonItems items) ++ "]"
  | .object fields => "\x7b" ++ commaSeparated (jsonFields fields) ++ "\x7d"

def jsonItems : List Value → List String
  | [] => []
  | v :: rest => v.jsonText :: jsonItems rest

def jsonFields : List (String × Value) → List String
  | [] => []
  | (name, v) :: rest => (Text.jsonQuoted name ++ ":" ++ v.jsonText) :: jsonFields rest

end

def displayText : Value → String
  | .null => ""
  | .string s => s
  | .number n => n.displayText
  | v => v.jsonText

mutual

/-- The value written as a constructor and its content. -/
def literalText : Value → String
  | .null => "Null"
  | .bool b => "Bool(" ++ (if b then "true" else "false") ++ ")"
  | .number n => "Number(" ++ n.jsonText ++ ")"
  | .string s => "String(" ++ Text.literalQuoted s ++ ")"
  | .array items => "Array [" ++ String.intercalate ", " (literalItems items) ++ "]"
  | .object fields => "Object \x7b" ++ String.intercalate ", " (literalFields fields) ++ "\x7d"

def literalItems : List Value → List String
  | [] => []
  | v :: rest => v.literalText :: literalItems rest

def literalFields : List (String × Value) → List String
  | [] => []
  | (name, v) :: rest => (Text.literalQuoted name ++ ": " ++ v.literalText) :: literalFields rest

end

end JsonTemplate.Value
