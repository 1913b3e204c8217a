import JsonTemplate.Expr.Builtin
import JsonTemplate.Expr.Options

/-! The value of an expression. Operands are evaluated from left to right, and the first error
ends the evaluation. -/

namespace JsonTemplate

/-- Calls a function of the caller's own, or else the builtin one. -/
def Options.call (o : Options) (name : String) (arguments : List Value) : EvalResult :=
  match o.function? name with
  | some f =>
    match f arguments with
    | .ok v => .ok v
    | .error message => .error (.failure name message)
  | none =>
    match Builtin.ofName? name with
    | some b => b.call arguments
    | none => .error (.unknownFunction name)

namespace Expr

mutual

/-- The value of an expression in a context. A name without a value is nil. -/
def eval (o : Options) (context : Fields Value) : Expr → EvalResult
  | .int _ n => .ok (.int n)
  | .float _ x => Number.finite x
  | .string _ s => .ok (.string s)
  | .bool _ b => .ok (.bool b)
  | .nil _ => .ok .null
  | .array _ items => do pure (.array (← evalItems o context items))
  | .map _ entries => do pure (.object (Fields.ofList (← evalEntries o context entries)))
  | .identifier _ name => .ok ((Scope.get? ⟨context, o.globals⟩ name).getD .null)
  | .member _ object field => do (← object.eval o context).member field.text
  | .index _ object place => do
    let v ← object.eval o context
    v.index (← place.eval o context)
  | .call _ function arguments => do o.call function.text (← evalItems o context arguments)
  | .unary _ op operand => do op.apply (← operand.eval o context)
  | .binary _ op left right => do
    let v ← left.eval o context
    op.apply v (← right.eval o context)
  | .lazy _ op left right => do
    match op.decided? (← left.eval o context) with
    | some v => pure v
    | none => pure (op.otherwise (← right.eval o context))
  | .conditional _ condition yes no => do
    if (← condition.eval o context).truthy then yes.eval o context else no.eval o context
  | .paren _ inner => inner.eval o context

def evalItems (o : Options) (context : Fields Value) : List Expr → Except EvalError (List Value)
  | [] => .ok []
  | e :: rest => do
    let v ← e.eval o context
    pure (v :: (← evalItems o context rest))

def evalEntries (o : Options) (context : Fields Value) :
    List (String × Expr) → Except EvalError (List (String × Value))
  | [] => .ok []
  | (name, e) :: rest => do
    let v ← e.eval o context
    pure ((name, v) :: (← evalEntries o context rest))

end

end Expr

end JsonTemplate
