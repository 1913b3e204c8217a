import JsonTemplate.Decimal.Layout
import JsonTemplate.Source.Span

/-! The tokens of expressions: literals, names, keywords and symbols. -/

namespace JsonTemplate

/-- Words with a meaning of their own. They are no variable names, but name fields. -/
inductive Keyword where
  | true | false | nil | not | and | or | isIn
  deriving DecidableEq, Repr

namespace Keyword

def text : Keyword → String
  | .true => "true"
  | .false => "false"
  | .nil => "nil"
  | .not => "not"
  | .and => "and"
  | .or => "or"
  | .isIn => "in"

/-- The spellings of all keywords. Nil has two. -/
def spellings : List (String × Keyword) :=
  [("true", .true), ("false", .false), ("nil", .nil), ("null", .nil), ("not", .not),
    ("and", .and), ("or", .or), ("in", .isIn)]

def ofText? (s : String) : Option Keyword := spellings.lookup s

theorem ofText?_text (k : Keyword) : ofText? k.text = some k := by cases k <;> decide

end Keyword

/-- Operators and punctuation. -/
inductive Symbol where
  | equal | notEqual | lessEqual | greaterEqual | and | or | coalesce
  | plus | minus | star | slash | percent | bang | less | greater | question
  | leftParen | rightParen | leftBracket | rightBracket | leftBrace | rightBrace
  | comma | colon | dot
  deriving DecidableEq, Repr

namespace Symbol

def chars : Symbol → List Char
  | .equal => ['=', '=']
  | .notEqual => ['!', '=']
  | .lessEqual => ['<', '=']
  | .greaterEqual => ['>', '=']
  | .and => ['&', '&']
  | .or => ['|', '|']
  | .coalesce => ['?', '?']
  | .plus => ['+']
  | .minus => ['-']
  | .star => ['*']
  | .slash => ['/']
  | .percent => ['%']
  | .bang => ['!']
  | .less => ['<']
  | .greater => ['>']
  | .question => ['?']
  | .leftParen => ['(']
  | .rightParen => [')']
  | .leftBracket => ['[']
  | .rightBracket => [']']
  | .leftBrace => ['{']
  | .rightBrace => ['}']
  | .comma => [',']
  | .colon => [':']
  | .dot => ['.']

def text (s : Symbol) : String := String.ofList s.chars

/-- All symbols, longer ones first. -/
def all : List Symbol :=
  [.equal, .notEqual, .lessEqual, .greaterEqual, .and, .or, .coalesce, .plus, .minus, .star,
    .slash, .percent, .bang, .less, .greater, .question, .leftParen, .rightParen, .leftBracket,
    .rightBracket, .leftBrace, .rightBrace, .comma, .colon, .dot]

/-- The longest symbol that a text starts with. -/
def at? (s : List Char) : Option Symbol := all.find? fun symbol => symbol.chars.isPrefixOf s

theorem mem_all (s : Symbol) : s ∈ all := by cases s <;> decide

theorem chars_ne_nil (s : Symbol) : s.chars ≠ [] := by cases s <;> simp [chars]

theorem prefix_of_at? {s : List Char} {symbol : Symbol} (h : at? s = some symbol) :
    symbol.chars <+: s := by
  have := List.find?_some h
  exact List.isPrefixOf_iff_prefix.1 this

end Symbol

namespace Token

inductive Kind where
  | int (n : Int)
  | float (x : Float)
  | string (s : String)
  | identifier (name : String)
  | keyword (k : Keyword)
  | symbol (s : Symbol)
  | eof
  deriving DecidableEq, Repr

namespace Kind

/-- A token in a message. -/
def text : Kind → String
  | .int n => Decimal.intText n
  | .float x => Decimal.plainLayout.text x
  | .string s => s!"'{s}'"
  | .identifier name => name
  | .keyword k => k.text
  | .symbol s => s.text
  | .eof => "end of expression"

/-- The kind of a word. -/
def ofWord (word : String) : Kind :=
  match Keyword.ofText? word with
  | some k => .keyword k
  | none => .identifier word

def isKeyword : Kind → Bool
  | .keyword _ => true
  | _ => false

end Kind

end Token

structure Token where
  kind : Token.Kind
  span : Span
  deriving DecidableEq, Repr

end JsonTemplate
