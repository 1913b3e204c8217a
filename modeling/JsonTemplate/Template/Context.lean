import JsonTemplate.Template.Error
import JsonTemplate.Value.Order

/-! Contexts: the values that a template is filled in with. Blocks bind further names for what
is inside them, in a context of its own. -/

namespace JsonTemplate

structure Context where
  vars : Fields Value

namespace Context

def empty : Context := ⟨[]⟩

def get? (c : Context) (name : String) : Option Value := c.vars.get? name

/-- The context with a name bound to a value. -/
def bind (c : Context) (name : String) (v : Value) : Context := ⟨c.vars.insert name v⟩

/-- The context of a list of bindings, of which later ones go before earlier ones. -/
def ofList (bindings : List (String × Value)) : Context := ⟨Fields.ofList bindings⟩

/-- The context that an object stands for. -/
def ofValue : Value → TemplateResult Context
  | .object fields => .ok ⟨fields⟩
  | v => .error (.contextKind v.kind)

/-- The same names bound to the same values. -/
def identical (a b : Context) : Bool := Value.identical (.object a.vars) (.object b.vars)

theorem get?_bind (c : Context) (name other : String) (v : Value) :
    (c.bind name v).get? other = if other = name then some v else c.get? other :=
  Fields.get?_insert name other v c.vars

end Context

end JsonTemplate
