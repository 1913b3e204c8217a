import JsonTemplate.Expr.Parser.Operators
import JsonTemplate.Expr.Parser.Primary

/-! Expressions of any nesting up to the limit, and whole lists of tokens. -/

namespace JsonTemplate

namespace Parser

/-- An expression with at most the given number of expressions inside each other. It takes up a
level of nesting, so more than there are levels is no restriction. -/
def expressionWithin : Nat → Parser Expr
  | 0 => fail .tooDeep
  | levels + 1 =>
    nested (ternary (expressionWithin levels) (primary (expressionWithin levels)))

def expression : Parser Expr := expressionWithin (nestingLimit + 1)

end Parser

/-- An expression, if there is one, and the faults found on the way. -/
structure Parsing where
  expr : Option Expr
  faults : List LocatedFault

/-- Reads all tokens as one expression. The expression is there even if tokens are left behind
it. -/
def Parsing.ofTokens (tokens : List Token) : Parsing :=
  let s := Parser.start tokens
  if s.kind = .eof then ⟨none, (s.report .emptyExpression).faults⟩
  else match Parser.expression s with
    | (none, s) => ⟨none, s.faults⟩
    | (some e, s) =>
      if s.kind = .eof then ⟨some e, s.faults⟩
      else ⟨some e, (s.report (.trailingInput s.kind)).faults⟩

end JsonTemplate
