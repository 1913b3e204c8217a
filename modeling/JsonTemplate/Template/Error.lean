import JsonTemplate.Diagnostic.Report
import JsonTemplate.Expr.EvalError

/-! Errors of templates. Expressions that do not compile and malformed control objects are found
while a template is built, the other errors when it is filled in. -/

namespace JsonTemplate

/-- The controls of a template, each with the key that marks its objects. -/
inductive Control where
  | conditional | iteration | binding
  deriving DecidableEq, Repr

def Control.key : Control → String
  | .conditional => "$if"
  | .iteration => "$iterate"
  | .binding => "$with"

/-- What can be wrong with a control object. -/
inductive FormFault where
  | unexpectedKey (key : String)
  | missingCondition
  | conditionKind (found : Value.Kind)
  | emptyCondition
  | markerKind (found : Value.Kind)
  | missingText (key : String)
  | notText (key : String) (found : Value.Kind)
  | notName (key : String) (found : Value.Kind)
  | fieldsBesideBody
  | emptyIteration
  | notBinding (text : String)
  | missingExpression (name : String)
  deriving DecidableEq, Repr

def FormFault.reason (control : Control) : FormFault → String
  | .unexpectedKey key => s!"unexpected key `{key}` next to a structured `{control.key}`"
  | .missingCondition => "missing `$cond` condition"
  | .conditionKind found => s!"condition must be a string or object, got {found.name}"
  | .emptyCondition => "empty condition"
  | .markerKind found => s!"expected a string or object, got {found.name}"
  | .missingText key => s!"missing `{key}`"
  | .notText key found => s!"`{key}` must be a string, got {found.name}"
  | .notName key found => s!"`{key}` must be a non-empty string, got {found.name}"
  | .fieldsBesideBody => "fields are not allowed next to `$body`"
  | .emptyIteration => "empty iteration expression"
  | .notBinding text => s!"expected `name := expression`, got `{text}`"
  | .missingExpression name => s!"missing expression for `{name}`"

inductive TemplateError where
  | compile (expression : String) (report : Report)
  | malformed (control : Control) (fault : FormFault)
  | notIterable (expression : String) (found : Value.Kind)
  | evaluation (expression : String) (cause : EvalError)
  | contextKind (found : Value.Kind)
  | decoding
  deriving DecidableEq, Repr

namespace TemplateError

def message : TemplateError → String
  | .compile expression report => s!"failed to compile expression `{expression}`: {report.text}"
  | .malformed control fault => s!"invalid {control.key} block: {fault.reason control}"
  | .notIterable expression found =>
    s!"cannot iterate over `{expression}`: expected array or object, got {found.name}"
  | .evaluation expression cause => s!"failed to evaluate `{expression}`: {cause.message}"
  | .contextKind found => s!"context must be an object, got {found.name}"
  | .decoding => "failed to decode template output"

/-- Whether the error is found while a template is built. -/
def isConstruction : TemplateError → Bool
  | .compile .. | .malformed .. => true
  | _ => false

end TemplateError

/-- Templates give a result or an error. -/
abbrev TemplateResult := Except TemplateError

end JsonTemplate
