import JsonTemplate.Expr.Program

/-! The height of expressions: how many nodes stand below each other, the arguments of calls and
the values of entries being below their calls and maps. Functions over expressions call themselves
for the nodes just below, so the height bounds how many of their calls are inside each other. -/

namespace JsonTemplate

namespace Expr

/-- The expressions just below, from left to right. -/
def children : Expr → List Expr
  | .array _ items => items
  | .map _ entries => entries.map Prod.snd
  | .member _ object _ => [object]
  | .index _ object place => [object, place]
  | .call _ _ arguments => arguments
  | .unary _ _ operand => [operand]
  | .binary _ _ left right | .lazy _ _ left right => [left, right]
  | .conditional _ condition yes no => [condition, yes, no]
  | .paren _ inner => [inner]
  | _ => []

/-- The nodes on a way down from an expression, which may end anywhere. -/
inductive Path : Expr → List Expr → Prop where
  | stay (e : Expr) : Path e [e]
  | down {e child : Expr} {nodes : List Expr} : child ∈ e.children → Path child nodes →
    Path e (e :: nodes)

mutual

/-- The number of nodes on the longest way down. -/
def height : Expr → Nat
  | .array _ items => heightOfItems items + 1
  | .map _ entries => heightOfEntries entries + 1
  | .member _ object _ => object.height + 1
  | .index _ object place => max object.height place.height + 1
  | .call _ _ arguments => heightOfItems arguments + 1
  | .unary _ _ operand => operand.height + 1
  | .binary _ _ left right | .lazy _ _ left right => max left.height right.height + 1
  | .conditional _ condition yes no => max condition.height (max yes.height no.height) + 1
  | .paren _ inner => inner.height + 1
  | _ => 1

def heightOfItems : List Expr → Nat
  | [] => 0
  | e :: rest => max e.height (heightOfItems rest)

def heightOfEntries : List (String × Expr) → Nat
  | [] => 0
  | (_, e) :: rest => max e.height (heightOfEntries rest)

end

theorem heightOfItems_le {items : List Expr} {n : Nat} :
    heightOfItems items ≤ n ↔ ∀ e ∈ items, e.height ≤ n := by
  induction items with
  | nil => simp [heightOfItems]
  | cons e rest ih => rw [heightOfItems, Nat.max_le, ih, List.forall_mem_cons]

theorem heightOfEntries_le {entries : List (String × Expr)} {n : Nat} :
    heightOfEntries entries ≤ n ↔ ∀ e ∈ entries.map Prod.snd, e.height ≤ n := by
  induction entries with
  | nil => simp [heightOfEntries]
  | cons entry rest ih =>
    rw [heightOfEntries, Nat.max_le, ih, List.map_cons, List.forall_mem_cons]

theorem height_le_succ {e : Expr} {n : Nat} :
    e.height ≤ n + 1 ↔ ∀ child ∈ e.children, child.height ≤ n := by
  cases e with
  | array => simp only [height, Nat.add_le_add_iff_right, heightOfItems_le, children]
  | call => simp only [height, Nat.add_le_add_iff_right, heightOfItems_le, children]
  | map => simp only [height, Nat.add_le_add_iff_right, heightOfEntries_le, children]
  | index | binary | lazy | conditional =>
    simp only [height, Nat.add_le_add_iff_right, Nat.max_le, children, List.forall_mem_cons,
      List.not_mem_nil, false_implies, implies_true, and_true]
  | _ => simp [height, children]

theorem height_pos (e : Expr) : 0 < e.height := by
  cases e <;> simp [height]

/-- What holds of an expression if it holds of those just below holds of every expression. -/
theorem induction_children {P : Expr → Prop} (h : ∀ e, (∀ child ∈ e.children, P child) → P e)
    (e : Expr) : P e := by
  obtain ⟨n, hn⟩ : ∃ n, e.height ≤ n := ⟨_, Nat.le_refl _⟩
  induction n generalizing e with
  | zero => exact absurd hn (Nat.not_le_of_lt e.height_pos)
  | succ n ih => exact h e fun child hchild => ih child (height_le_succ.1 hn child hchild)

/-- No way down has more nodes than the height. -/
theorem Path.length_le {e : Expr} {nodes : List Expr} (h : Path e nodes) :
    nodes.length ≤ e.height := by
  induction h with
  | stay e => exact e.height_pos
  | @down e child nodes hchild _ ih =>
    have hlt : child.height + 1 ≤ e.height := by
      obtain ⟨n, hn⟩ := Nat.exists_eq_add_one.2 e.height_pos
      rw [hn]
      exact Nat.succ_le_succ (height_le_succ.1 (Nat.le_of_eq hn) child hchild)
    exact Nat.le_trans (Nat.succ_le_succ ih) hlt

/-! ### Walking down -/

/-- The expression and all expressions inside it, as `subterms` lists them, unless there are more
than the given number of walks inside each other. -/
def subtermsWithin : Nat → Expr → Option (List Expr)
  | 0, _ => none
  | depth + 1, e => do
    let inside ← e.children.mapM (subtermsWithin depth)
    pure (e :: inside.flatten)

theorem subtermsOfItems_eq (items : List Expr) :
    subtermsOfItems items = (items.map subterms).flatten := by
  induction items with
  | nil => rfl
  | cons e rest ih => rw [subtermsOfItems, ih, List.map_cons, List.flatten_cons]

theorem subtermsOfEntries_eq (entries : List (String × Expr)) :
    subtermsOfEntries entries = ((entries.map Prod.snd).map subterms).flatten := by
  induction entries with
  | nil => rfl
  | cons entry rest ih =>
    rw [subtermsOfEntries, ih, List.map_cons, List.map_cons, List.flatten_cons]

theorem subterms_eq (e : Expr) : e.subterms = e :: (e.children.map subterms).flatten := by
  cases e <;> simp [subterms, children, subtermsOfItems_eq, subtermsOfEntries_eq]

theorem subterms_subset_of_mem_children {e child : Expr} (h : child ∈ e.children) :
    child.subterms ⊆ e.subterms := by
  intro node hnode
  rw [subterms_eq e]
  exact List.mem_cons_of_mem _ (List.mem_flatten.2 ⟨_, List.mem_map_of_mem h, hnode⟩)

/-- The results for all items of a list, if each item has one. -/
theorem mapM_eq_pure {m : Type → Type} [Monad m] [LawfulMonad m] {α β : Type} {f : α → m β}
    {g : α → β} {l : List α} (h : ∀ a ∈ l, f a = pure (g a)) : l.mapM f = pure (l.map g) := by
  induction l with
  | nil => rfl
  | cons a rest ih =>
    obtain ⟨ha, hrest⟩ := List.forall_mem_cons.1 h
    rw [List.mapM_cons, ha, pure_bind, ih hrest, pure_bind, List.map_cons]

/-- A walk over an expression has as many walks inside each other as the expression is high. -/
theorem subtermsWithin_eq {depth : Nat} {e : Expr} (h : e.height ≤ depth) :
    e.subtermsWithin depth = some e.subterms := by
  induction depth generalizing e with
  | zero => exact absurd h (Nat.not_le_of_lt e.height_pos)
  | succ depth ih =>
    have hchildren : e.children.mapM (subtermsWithin depth) = some (e.children.map subterms) :=
      mapM_eq_pure fun child hchild => ih (height_le_succ.1 h child hchild)
    rw [subtermsWithin, hchildren, subterms_eq e]
    rfl

end Expr

/-! ### Evaluation -/

/-- A result that is not there if a limit is reached. -/
abbrev Limited (α : Type) : Type := ExceptT EvalError Option α

namespace Limited

variable {α β : Type}

def reached : Limited α := ExceptT.mk none

def ofResult (r : Except EvalError α) : Limited α := ExceptT.mk (some r)

theorem ofResult_bind (r : Except EvalError α) (f : α → Except EvalError β) :
    ofResult (r >>= f) = ofResult r >>= fun a => ofResult (f a) := by
  cases r <;> rfl

end Limited

open Limited (reached ofResult ofResult_bind)

namespace Expr

section
variable (o : Options) (context : Fields Value)

/-- The value of an expression, unless there are more than the given number of evaluations inside
each other. -/
def evalWithin : Nat → Expr → Limited Value
  | 0, _ => reached
  | depth + 1, e =>
    match e with
    | .int _ n => ofResult (.ok (.int n))
    | .float _ x => ofResult (Number.finite x)
    | .string _ s => ofResult (.ok (.string s))
    | .bool _ b => ofResult (.ok (.bool b))
    | .nil _ => ofResult (.ok .null)
    | .array _ items => do pure (.array (← items.mapM (evalWithin depth)))
    | .map _ entries => do
      let members ← entries.mapM fun entry => do pure (entry.1, ← evalWithin depth entry.2)
      pure (.object (Fields.ofList members))
    | .identifier _ name => ofResult (.ok ((Scope.get? ⟨context, o.globals⟩ name).getD .null))
    | .member _ object field => do
      let v ← evalWithin depth object
      ofResult (v.member field.text)
    | .index _ object place => do
      let v ← evalWithin depth object
      let w ← evalWithin depth place
      ofResult (v.index w)
    | .call _ function arguments => do
      let vs ← arguments.mapM (evalWithin depth)
      ofResult (o.call function.text vs)
    | .unary _ op operand => do
      let v ← evalWithin depth operand
      ofResult (op.apply v)
    | .binary _ op left right => do
      let v ← evalWithin depth left
      let w ← evalWithin depth right
      ofResult (op.apply v w)
    | .lazy _ op left right => do
      match op.decided? (← evalWithin depth left) with
      | some v => pure v
      | none => pure (op.otherwise (← evalWithin depth right))
    | .conditional _ condition yes no => do
      if (← evalWithin depth condition).truthy then evalWithin depth yes
      else evalWithin depth no
    | .paren _ inner => evalWithin depth inner

variable {o context} {depth : Nat}

theorem evalItems_within {items : List Expr}
    (h : ∀ e ∈ items, e.evalWithin o context depth = ofResult (e.eval o context)) :
    items.mapM (evalWithin o context depth) = ofResult (evalItems o context items) := by
  induction items with
  | nil => rfl
  | cons e rest ih =>
    obtain ⟨he, hrest⟩ := List.forall_mem_cons.1 h
    simp only [List.mapM_cons, he, ih hrest, evalItems, ofResult_bind]
    rfl

theorem evalEntries_within {entries : List (String × Expr)}
    (h : ∀ e ∈ entries.map Prod.snd, e.evalWithin o context depth = ofResult (e.eval o context)) :
    (entries.mapM fun entry => do pure (entry.1, ← entry.2.evalWithin o context depth)) =
      ofResult (evalEntries o context entries) := by
  induction entries with
  | nil => rfl
  | cons entry rest ih =>
    obtain ⟨he, hrest⟩ := List.forall_mem_cons.1 h
    simp only [List.mapM_cons, he, ih hrest, evalEntries, ofResult_bind, bind_assoc, pure_bind]
    rfl

/-- An evaluation has as many evaluations inside each other as the expression is high. -/
theorem evalWithin_eq {e : Expr} (h : e.height ≤ depth) :
    e.evalWithin o context depth = ofResult (e.eval o context) := by
  induction depth generalizing e with
  | zero => exact absurd h (Nat.not_le_of_lt e.height_pos)
  | succ depth ih =>
    have hchildren : ∀ child ∈ e.children,
        child.evalWithin o context depth = ofResult (child.eval o context) :=
      fun child hchild => ih (height_le_succ.1 h child hchild)
    cases e with
    | int | float | string | bool | nil | identifier => rfl
    | array _ items =>
      have hitems : items.mapM (evalWithin o context depth) = _ := evalItems_within hchildren
      rw [evalWithin, hitems, eval, ofResult_bind]
      rfl
    | map _ entries =>
      rw [evalWithin, evalEntries_within hchildren, eval, ofResult_bind]
      rfl
    | call _ _ arguments =>
      have harguments : arguments.mapM (evalWithin o context depth) = _ :=
        evalItems_within hchildren
      rw [evalWithin, harguments, eval, ofResult_bind]
    | member _ object _ =>
      have hobject := hchildren object (by simp [children])
      rw [evalWithin, hobject, eval, ofResult_bind]
    | index _ object place =>
      have hobject := hchildren object (by simp [children])
      have hplace := hchildren place (by simp [children])
      simp only [evalWithin, hobject, hplace, eval, ofResult_bind]
    | unary _ _ operand =>
      have hoperand := hchildren operand (by simp [children])
      rw [evalWithin, hoperand, eval, ofResult_bind]
    | binary _ _ left right =>
      have hleft := hchildren left (by simp [children])
      have hright := hchildren right (by simp [children])
      simp only [evalWithin, hleft, hright, eval, ofResult_bind]
    | lazy _ op left right =>
      have hleft := hchildren left (by simp [children])
      have hright := hchildren right (by simp [children])
      simp only [evalWithin, hleft, hright, eval, ofResult_bind]
      congr 1
      funext v
      cases op.decided? v with
      | some w => rfl
      | none =>
        simp only [ofResult_bind]
        rfl
    | conditional _ condition yes no =>
      have hcondition := hchildren condition (by simp [children])
      have hyes := hchildren yes (by simp [children])
      have hno := hchildren no (by simp [children])
      simp only [evalWithin, hcondition, hyes, hno, eval, ofResult_bind]
      congr 1
      funext v
      split <;> rfl
    | paren _ inner =>
      rw [evalWithin, hchildren inner (by simp [children]), eval]

end

end Expr

end JsonTemplate
