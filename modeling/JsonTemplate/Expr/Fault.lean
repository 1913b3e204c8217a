import JsonTemplate.Diagnostic.Report
import JsonTemplate.Expr.Token
import JsonTemplate.Source.Lines

/-! What can be wrong with the text of an expression. The wording of a diagnostic follows from
the fault alone, its place and line from where the fault was found. -/

namespace JsonTemplate

/-- How many levels of sub-expressions, operators and operands an expression may have. -/
def nestingLimit : Nat := 64

inductive Fault where
  | unterminatedString (quote : Char)
  | unfinishedEscape
  | unexpectedCharacter (c : Char)
  | invalidNumber (literal : String)
  | invalidEscape (c : Char)
  | expectedToken (wanted found : Token.Kind)
  | expectedFieldName (found : Token.Kind)
  | expectedExpression (found : Token.Kind)
  | expectedMapKey (found : Token.Kind)
  | emptyExpression
  | trailingInput (found : Token.Kind)
  | chainedComparison
  | tooDeep
  deriving DecidableEq, Repr

namespace Fault

def code : Fault → Code
  | .unterminatedString _ | .unfinishedEscape => .unterminatedString
  | .unexpectedCharacter _ => .unexpectedCharacter
  | .invalidNumber _ => .invalidNumber
  | .invalidEscape _ => .invalidEscape
  | .expectedToken .. | .expectedFieldName _ | .expectedExpression _ | .expectedMapKey _ =>
    .unexpectedToken
  | .emptyExpression => .emptyExpression
  | .trailingInput _ => .trailingInput
  | .chainedComparison => .chainedComparison
  | .tooDeep => .nestingLimit

def message : Fault → String
  | .unterminatedString _ => "Unterminated string literal"
  | .unfinishedEscape => "Unexpected end of expression in escape sequence"
  | .unexpectedCharacter c => s!"Unexpected character '{c}'"
  | .invalidNumber literal => s!"Invalid number literal '{literal}'"
  | .invalidEscape c => s!"Invalid escape sequence '\\{c}'"
  | .expectedToken wanted found => s!"expected '{wanted.text}', got '{found.text}'"
  | .expectedFieldName found => s!"expected field name, got '{found.text}'"
  | .expectedExpression found => s!"expected expression, got '{found.text}'"
  | .expectedMapKey found => s!"expected map key, got '{found.text}'"
  | .emptyExpression => "empty expression"
  | .trailingInput found => s!"unexpected '{found.text}' after end of expression"
  | .chainedComparison => "comparison operators cannot be chained"
  | .tooDeep => s!"maximum expression nesting depth is {nestingLimit}"

def suggestion : Fault → Option String
  | .unterminatedString quote => some s!"Close the string with {quote}"
  | .unexpectedCharacter '=' =>
    some "Use '==' for comparison; assignments are only valid in `$with`"
  | .chainedComparison => some "combine comparisons with '&&': a < b && b < c"
  | _ => none

end Fault

/-- A fault and its place. -/
structure LocatedFault where
  fault : Fault
  span : Span
  deriving DecidableEq, Repr

/-- A diagnostic that quotes the line on which its span starts. -/
def Diagnostic.quoting (source : String) (span : Span) (code : Code) (message : String)
    (suggestion : Option String) : Diagnostic :=
  { code, category := code.category, message, span
    sourceLine := Source.lineText source span.start.line, suggestion }

/-- The diagnostic of a fault in a source text. -/
def LocatedFault.diagnostic (source : String) (f : LocatedFault) : Diagnostic :=
  .quoting source f.span f.fault.code f.fault.message f.fault.suggestion

/-- The report of all faults in a source text. -/
def Report.ofFaults (source : String) (faults : List LocatedFault) : Report :=
  .ofList (faults.map (·.diagnostic source))

end JsonTemplate
