import JsonTemplate.Expr.Program
import JsonTemplate.Proofs.Evaluation.Errors

/-! Evaluation with a record of what it does. The record has the calls of builtin functions, the
items taken out of arrays and strings, and the operators applied to two operands. It does not
change the result. -/

namespace JsonTemplate

/-- What happens on the way to a value. -/
inductive Step where
  | builtin (function : Builtin) (arguments : List Value)
  | element (place length : Nat)
  | operator (op : BinaryOp) (left right : Value)

/-- A result with the steps on the way. -/
structure Logged (α : Type) where
  steps : List Step
  result : Except EvalError α

namespace Logged

variable {α β : Type}

protected def pure (a : α) : Logged α := ⟨[], .ok a⟩

protected def bind (x : Logged α) (f : α → Logged β) : Logged β :=
  match x.result with
  | .ok a => ⟨x.steps ++ (f a).steps, (f a).result⟩
  | .error e => ⟨x.steps, .error e⟩

instance : Monad Logged where
  pure := Logged.pure
  bind := Logged.bind

/-- A result without a step. -/
def ofResult (r : Except EvalError α) : Logged α := ⟨[], r⟩

/-- A result with one step that leads to it. -/
def did (step : Step) (r : Except EvalError α) : Logged α := ⟨[step], r⟩

@[simp] theorem result_pure (a : α) : (pure a : Logged α).result = .ok a := rfl

@[simp] theorem result_ofResult (r : Except EvalError α) : (ofResult r).result = r := rfl

@[simp] theorem result_did (step : Step) (r : Except EvalError α) :
    (did step r).result = r := rfl

@[simp] theorem result_bind (x : Logged α) (f : α → Logged β) :
    (x >>= f).result = x.result >>= fun a => (f a).result := by
  obtain ⟨steps, _ | a⟩ := x <;> rfl

@[simp] theorem steps_pure (a : α) : (pure a : Logged α).steps = [] := rfl

@[simp] theorem steps_ofResult (r : Except EvalError α) : (ofResult r).steps = [] := rfl

@[simp] theorem steps_did (step : Step) (r : Except EvalError α) : (did step r).steps = [step] :=
  rfl

/-- The second part has steps only if the first one has a value. -/
theorem steps_bind (x : Logged α) (f : α → Logged β) :
    (x >>= f).steps = x.steps ++ match x.result with
      | .ok a => (f a).steps
      | .error _ => [] := by
  obtain ⟨steps, e | a⟩ := x
  · exact (List.append_nil steps).symm
  · rfl

theorem steps_bind_pure (x : Logged α) (f : α → β) :
    (x >>= fun a => pure (f a)).steps = x.steps := by
  obtain ⟨steps, e | a⟩ := x
  · rfl
  · exact List.append_nil steps

theorem mem_steps_bind {x : Logged α} {f : α → Logged β} {step : Step} :
    step ∈ (x >>= f).steps ↔
      step ∈ x.steps ∨ ∃ a, x.result = .ok a ∧ step ∈ (f a).steps := by
  rw [steps_bind, List.mem_append]
  cases x.result <;> simp

end Logged

open Logged (ofResult did)

/-- An item of a list, with the position that it is taken from. -/
def Value.itemAtLogged {α : Type} (items : List α) (place : Value) : Logged α := do
  let i ← ofResult (resolve items.length place)
  did (.element i items.length) (taken items i)

def Value.indexLogged (object place : Value) : Logged Value :=
  match object, place with
  | .array items, place => itemAtLogged items place
  | .string s, place => do pure (.string (String.ofList [← itemAtLogged s.toList place]))
  | object, place => ofResult (object.index place)

def Options.callLogged (o : Options) (name : String) (arguments : List Value) : Logged Value :=
  match o.function? name, Builtin.ofName? name with
  | none, some b => did (.builtin b arguments) (b.call arguments)
  | _, _ => ofResult (o.call name arguments)

namespace Expr

mutual

/-- The value of an expression in a context, with the steps on the way. -/
def evalLogged (o : Options) (context : Fields Value) : Expr → Logged Value
  | .array _ items => do pure (.array (← evalItemsLogged o context items))
  | .map _ entries => do pure (.object (Fields.ofList (← evalEntriesLogged o context entries)))
  | .member _ object field => do ofResult ((← object.evalLogged o context).member field.text)
  | .index _ object place => do
    let v ← object.evalLogged o context
    v.indexLogged (← place.evalLogged o context)
  | .call _ function arguments => do
    o.callLogged function.text (← evalItemsLogged o context arguments)
  | .unary _ op operand => do ofResult (op.apply (← operand.evalLogged o context))
  | .binary _ op left right => do
    let v ← left.evalLogged o context
    let w ← right.evalLogged o context
    did (.operator op v w) (op.apply v w)
  | .lazy _ op left right => do
    match op.decided? (← left.evalLogged o context) with
    | some v => pure v
    | none => pure (op.otherwise (← right.evalLogged o context))
  | .conditional _ condition yes no => do
    if (← condition.evalLogged o context).truthy then yes.evalLogged o context
    else no.evalLogged o context
  | .paren _ inner => inner.evalLogged o context
  | e => ofResult (e.eval o context)

def evalItemsLogged (o : Options) (context : Fields Value) : List Expr → Logged (List Value)
  | [] => pure []
  | e :: rest => do
    let v ← e.evalLogged o context
    pure (v :: (← evalItemsLogged o context rest))

def evalEntriesLogged (o : Options) (context : Fields Value) :
    List (String × Expr) → Logged (List (String × Value))
  | [] => pure []
  | (name, e) :: rest => do
    let v ← e.evalLogged o context
    pure ((name, v) :: (← evalEntriesLogged o context rest))

end

end Expr

/-- A run of a program, with its steps. -/
def Program.runLogged (p : Program) (context : Fields Value) : Logged Value :=
  p.expr.evalLogged p.options context

/-! ### The record changes nothing -/

theorem Value.result_itemAtLogged {α : Type} (items : List α) (place : Value) :
    (itemAtLogged items place).result = itemAt items place := by
  rw [itemAt_eq_resolve, itemAtLogged, Logged.result_bind]
  rfl

theorem Value.result_indexLogged (object place : Value) :
    (object.indexLogged place).result = object.index place := by
  cases object with
  | array items => exact result_itemAtLogged items place
  | string s =>
    simp only [indexLogged, index, Logged.result_bind, result_itemAtLogged, Logged.result_pure]
    cases itemAt s.toList place <;> rfl
  | _ => rfl

theorem Options.result_callLogged (o : Options) (name : String) (arguments : List Value) :
    (o.callLogged name arguments).result = o.call name arguments := by
  unfold callLogged
  split
  · next b hf hb => simp only [Logged.result_did, Options.call, hf, hb]
  · rfl

namespace Expr

section
variable (o : Options) (context : Fields Value)

mutual

theorem result_evalLogged : ∀ e : Expr, (e.evalLogged o context).result = e.eval o context
  | .int .. | .float .. | .string .. | .bool .. | .nil _ | .identifier .. => by
    simp only [evalLogged, Logged.result_ofResult]
  | .array _ items => by
    simp only [evalLogged, eval, Logged.result_bind, result_evalItemsLogged items]
    rfl
  | .map _ entries => by
    simp only [evalLogged, eval, Logged.result_bind, result_evalEntriesLogged entries]
    rfl
  | .member _ object field => by
    simp only [evalLogged, eval, Logged.result_bind, result_evalLogged object,
      Logged.result_ofResult]
  | .index _ object place => by
    simp only [evalLogged, eval, Logged.result_bind, result_evalLogged object,
      result_evalLogged place, Value.result_indexLogged]
  | .call _ function arguments => by
    simp only [evalLogged, eval, Logged.result_bind, result_evalItemsLogged arguments,
      Options.result_callLogged]
  | .unary _ op operand => by
    simp only [evalLogged, eval, Logged.result_bind, result_evalLogged operand,
      Logged.result_ofResult]
  | .binary _ op left right => by
    simp only [evalLogged, eval, Logged.result_bind, result_evalLogged left,
      result_evalLogged right, Logged.result_did]
  | .lazy _ op left right => by
    simp only [evalLogged, eval, Logged.result_bind, result_evalLogged left]
    congr 1
    funext v
    cases op.decided? v with
    | some w => rfl
    | none =>
      simp only [Logged.result_bind, result_evalLogged right]
      rfl
  | .conditional _ condition yes no => by
    simp only [evalLogged, eval, Logged.result_bind, result_evalLogged condition]
    congr 1
    funext v
    split
    · exact result_evalLogged yes
    · exact result_evalLogged no
  | .paren _ inner => by
    simp only [evalLogged, eval, result_evalLogged inner]

theorem result_evalItemsLogged :
    ∀ items : List Expr, (evalItemsLogged o context items).result = evalItems o context items
  | [] => rfl
  | e :: rest => by
    simp only [evalItemsLogged, evalItems, Logged.result_bind, result_evalLogged e,
      result_evalItemsLogged rest]
    rfl

theorem result_evalEntriesLogged : ∀ entries : List (String × Expr),
    (evalEntriesLogged o context entries).result = evalEntries o context entries
  | [] => rfl
  | (name, e) :: rest => by
    simp only [evalEntriesLogged, evalEntries, Logged.result_bind, result_evalLogged e,
      result_evalEntriesLogged rest]
    rfl

end

end

end Expr

theorem Program.result_runLogged (p : Program) (context : Fields Value) :
    (p.runLogged context).result = p.run context :=
  p.expr.result_evalLogged p.options context

end JsonTemplate
