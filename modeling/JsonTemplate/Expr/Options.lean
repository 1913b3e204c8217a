import JsonTemplate.Text.Quoted
import JsonTemplate.Value.Printer

/-! What expressions can refer to besides their context: global values and functions of the
caller's own, which go before the builtin ones of the same name. -/

namespace JsonTemplate

/-- A function of the caller's own: a value, or a message why there is none. -/
abbrev Function := List Value → Except String Value

structure Options where
  globals : Fields Value
  functions : Fields Function

namespace Options

def empty : Options := ⟨[], []⟩

def withGlobal (o : Options) (name : String) (v : Value) : Options :=
  { o with globals := o.globals.insert name v }

def withFunction (o : Options) (name : String) (f : Function) : Options :=
  { o with functions := o.functions.insert name f }

def global? (o : Options) (name : String) : Option Value := o.globals.get? name

def function? (o : Options) (name : String) : Option Function := o.functions.get? name

/-- The globals with their values and the names of the functions. -/
def describe (o : Options) : String :=
  let globals := String.intercalate ", " (Value.literalFields o.globals)
  let functions := String.intercalate ", " (o.functions.names.map Text.literalQuoted)
  "ExprOptions \x7b globals: \x7b" ++ globals ++ "\x7d, functions: [" ++ functions ++ "] \x7d"

end Options

/-- What the names of an expression stand for. -/
structure Scope where
  context : Fields Value
  globals : Fields Value

/-- The value of a name in the context, or else among the globals. -/
def Scope.get? (s : Scope) (name : String) : Option Value :=
  match s.context.get? name with
  | some v => some v
  | none => s.globals.get? name

end JsonTemplate
