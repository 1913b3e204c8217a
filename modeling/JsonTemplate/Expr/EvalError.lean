import JsonTemplate.Decimal.Layout
import JsonTemplate.Expr.Syntax
import JsonTemplate.Value.Basic

/-! Why an expression has no value. Every error names its cause, and the wording follows from
it. -/

namespace JsonTemplate

inductive EvalError where
  | divisionByZero
  | moduloByZero
  | notFinite (x : Float)
  | fieldOfNil (field : String)
  | indexOfNil (place : Value.Kind)
  | indexOutOfRange (index : Int) (length : Nat)
  | noFields (field : String) (found : Value.Kind)
  | notIndexable (target place : Value.Kind)
  | notAnIndex (found : Value.Kind)
  | notNegatable (found : Value.Kind)
  | operands (op : BinaryOp) (left right : Value.Kind)
  | argument (function wanted : String) (found : Value.Kind)
  | notConvertible (function : String) (found : Value.Kind)
  | failure (function message : String)
  | unknownFunction (name : String)
  | missingArgument (function : String)
  deriving DecidableEq, Repr

namespace EvalError

/-- The kinds of errors that callers tell apart. -/
inductive Kind where
  | arithmetic | nilAccess | indexRange | type | function | unknownFunction | runtime
  deriving DecidableEq, Repr

def kind : EvalError → Kind
  | .divisionByZero | .moduloByZero | .notFinite _ => .arithmetic
  | .fieldOfNil _ | .indexOfNil _ => .nilAccess
  | .indexOutOfRange .. => .indexRange
  | .noFields .. | .notIndexable .. | .notAnIndex _ | .notNegatable _ | .operands ..
  | .argument .. | .notConvertible .. => .type
  | .failure .. => .function
  | .unknownFunction _ => .unknownFunction
  | .missingArgument _ => .runtime

def message : EvalError → String
  | .divisionByZero => "arithmetic trap: division by zero"
  | .moduloByZero => "arithmetic trap: modulo by zero"
  | .notFinite x => s!"arithmetic trap: result {Decimal.plainLayout.text x} is not a finite number"
  | .fieldOfNil field => s!"nil access: cannot access field '{field}' on nil"
  | .indexOfNil place => s!"nil access: cannot index nil with {place.name}"
  | .indexOutOfRange index length => s!"index {index} out of range for length {length}"
  | .noFields field found => s!"type mismatch: cannot access field '{field}' on {found.name}"
  | .notIndexable target place => s!"type mismatch: cannot index {target.name} with {place.name}"
  | .notAnIndex found => s!"type mismatch: index must be an integer, got {found.name}"
  | .notNegatable found => s!"type mismatch: cannot negate {found.name}"
  | .operands op left right =>
    s!"type mismatch: cannot apply '{op.symbol}' to {left.name} and {right.name}"
  | .argument function wanted found =>
    s!"type mismatch: {function}() expects {wanted}, got {found.name}"
  | .notConvertible function found => s!"type mismatch: {function}() cannot convert {found.name}"
  | .failure function message => s!"{function}(): {message}"
  | .unknownFunction name => s!"unknown function: {name}"
  | .missingArgument function => s!"runtime error: {function}() lacks an argument"

end EvalError

/-- A value, or the reason why there is none. -/
abbrev EvalResult := Except EvalError Value

end JsonTemplate
