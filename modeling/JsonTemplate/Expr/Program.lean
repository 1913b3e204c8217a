import JsonTemplate.Expr.Eval
import JsonTemplate.Expr.Lexer
import JsonTemplate.Expr.Parser.Basic

/-! Programs: expressions that were read without a fault and whose calls all name a function that
takes as many arguments as they give. -/

namespace JsonTemplate

/-- What can be wrong with a call. -/
inductive CallFault where
  | unknownFunction (name : String)
  | wrongArgumentCount (function : Builtin) (given : Nat)
  deriving DecidableEq, Repr

namespace CallFault

def code : CallFault → Code
  | .unknownFunction _ => .unknownFunction
  | .wrongArgumentCount .. => .wrongArgumentCount

def message : CallFault → String
  | .unknownFunction name => s!"unknown function '{name}'"
  | .wrongArgumentCount function given =>
    s!"'{function.name}' expects {function.arity.text}, got {given}"

def suggestion : CallFault → Option String
  | .unknownFunction _ =>
    some ("available functions: " ++ String.intercalate ", " (Builtin.all.map Builtin.name))
  | .wrongArgumentCount .. => none

end CallFault

/-- What is wrong with a call of a name with a number of arguments. -/
def Options.callFault? (o : Options) (name : String) (given : Nat) : Option CallFault :=
  if (o.function? name).isSome then none
  else match Builtin.ofName? name with
    | some b => if b.arity.accepts given then none else some (.wrongArgumentCount b given)
    | none => some (.unknownFunction name)

/-- The diagnostic of a node that is a faulty call. An unknown name is shown itself, and the whole
call if it has too few or too many arguments. The line is that of the name in both cases. -/
def Options.callDiagnostic? (o : Options) (source : String) : Expr → Option Diagnostic
  | .call span function arguments =>
    (o.callFault? function.text arguments.length).map fun fault =>
      let place := match fault with
        | .unknownFunction _ => function.span
        | .wrongArgumentCount .. => span
      { Diagnostic.quoting source function.span fault.code fault.message fault.suggestion with
        span := place }
  | _ => none

structure Program where
  source : String
  expr : Expr
  options : Options

namespace Program

/-- The value of a program in a context. -/
def run (p : Program) (context : Fields Value) : EvalResult := p.expr.eval p.options context

/-- Compiles a text. Calls are looked at once the text is an expression. -/
def compile (o : Options) (source : String) : Except Report Program :=
  let (tokens, faults) := Lexer.lex source
  let parsing := Parsing.ofTokens tokens
  let report := (Report.ofFaults source faults).extend (.ofFaults source parsing.faults)
  match parsing.expr with
  | none => .error report
  | some expr =>
    if report.hasErrors then .error report
    else
      let report := Report.ofList (expr.subterms.filterMap (o.callDiagnostic? source))
      if report.hasErrors then .error report else .ok ⟨source, expr, o⟩

end Program

end JsonTemplate
