import JsonTemplate.Text.Unseen

/-! Quoted texts. In a JSON text only the quote, the backslash and control characters are
escaped. A literal also escapes what cannot be seen: blanks, marks that join the character
before them, and characters without a form. -/

namespace JsonTemplate.Text

/-- A number below 16 as a hexadecimal digit. -/
def hexDigit (n : Nat) : Char := if n < 10 then Char.ofNat (48 + n) else Char.ofNat (87 + n)

/-- A character inside a quoted JSON text. -/
def jsonEscape (c : Char) : List Char :=
  match c with
  | '"' => ['\\', '"']
  | '\\' => ['\\', '\\']
  | '\x08' => ['\\', 'b']
  | '\x0c' => ['\\', 'f']
  | '\n' => ['\\', 'n']
  | '\r' => ['\\', 'r']
  | '\t' => ['\\', 't']
  | c =>
    if c.toNat < 0x20 then ['\\', 'u', '0', '0', hexDigit (c.toNat / 16), hexDigit (c.toNat % 16)]
    else [c]

def jsonQuoted (s : String) : String :=
  String.ofList ('"' :: s.toList.flatMap jsonEscape ++ ['"'])

/-- The hexadecimal digits of a number. -/
def hexText (n : Nat) : List Char := Nat.toDigits 16 n

/-- A character inside a literal. -/
def literalEscape (c : Char) : List Char :=
  match c with
  | '"' => ['\\', '"']
  | '\\' => ['\\', '\\']
  | '\n' => ['\\', 'n']
  | '\r' => ['\\', 'r']
  | '\t' => ['\\', 't']
  | '\x00' => ['\\', '0']
  | c => if isUnseen c then '\\' :: 'u' :: '{' :: hexText c.toNat ++ ['}'] else [c]

def literalQuoted (s : String) : String :=
  String.ofList ('"' :: s.toList.flatMap literalEscape ++ ['"'])

example : jsonQuoted "a\"\n\x1f/" = "\"a\\\"\\n\\u001f/\"" := by decide +kernel

end JsonTemplate.Text
