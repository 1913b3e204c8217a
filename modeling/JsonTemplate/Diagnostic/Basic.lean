import JsonTemplate.Source.Span

/-! Diagnostics: what is wrong with an expression, and where. The hundreds of a code tell its
category. -/

namespace JsonTemplate

inductive Category where
  | syntactic
  | name
  | structural
  deriving DecidableEq, Repr

def Category.text : Category → String
  | .syntactic => "syntax"
  | .name => "name"
  | .structural => "structure"

structure Code where
  number : Nat
  deriving DecidableEq, Repr

namespace Code

def unexpectedToken : Code := ⟨100⟩
def unterminatedString : Code := ⟨101⟩
def unexpectedCharacter : Code := ⟨102⟩
def invalidNumber : Code := ⟨103⟩
def invalidEscape : Code := ⟨104⟩
def emptyExpression : Code := ⟨105⟩
def trailingInput : Code := ⟨106⟩
def chainedComparison : Code := ⟨107⟩
def unknownFunction : Code := ⟨200⟩
def wrongArgumentCount : Code := ⟨201⟩
def nestingLimit : Code := ⟨300⟩

def category (c : Code) : Category :=
  if 200 ≤ c.number ∧ c.number ≤ 299 then .name
  else if 300 ≤ c.number ∧ c.number ≤ 399 then .structural
  else .syntactic

def text (c : Code) : String := s!"E{c.number}"

end Code

structure Diagnostic where
  code : Code
  category : Category
  message : String
  span : Span
  /-- The line on which the span starts. -/
  sourceLine : String
  suggestion : Option String
  deriving DecidableEq, Repr

/-- A diagnostic on one line: its place, code, category and message. -/
def Diagnostic.text (d : Diagnostic) : String :=
  s!"{d.span.text}: {d.code.text} [{d.category.text}] {d.message}"

end JsonTemplate
