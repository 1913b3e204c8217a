import JsonTemplate.Proofs.Evaluation.Height
import JsonTemplate.Proofs.Evaluation.Steps
import Mathlib.Logic.Relation

/-! What an evaluation comes to. It goes from an expression on to some of those just below, by the
values of those before them. The record of the evaluation has the steps of just the expressions that
it comes to, each by the values of its parts. -/

namespace JsonTemplate

namespace Expr

open Logged (mem_steps_bind steps_bind steps_bind_pure steps_pure steps_ofResult steps_did)

section Runs
variable (o : Options) (context : Fields Value)

/-- The evaluation of the first expression goes on to the second one, just below it. -/
inductive Runs : Expr → Expr → Prop where
  | item {span : Span} {before after : List Expr} {e : Expr} {vs : List Value} :
    evalItems o context before = .ok vs → Runs (.array span (before ++ e :: after)) e
  | entry {span : Span} {entries : List (String × Expr)} {before after : List Expr} {e : Expr}
      {vs : List Value} : entries.map Prod.snd = before ++ e :: after →
    evalItems o context before = .ok vs → Runs (.map span entries) e
  | object {span : Span} {e : Expr} {field : Name} : Runs (.member span e field) e
  | list {span : Span} {e place : Expr} : Runs (.index span e place) e
  | place {span : Span} {object e : Expr} {v : Value} : object.eval o context = .ok v →
    Runs (.index span object e) e
  | argument {span : Span} {function : Name} {before after : List Expr} {e : Expr}
      {vs : List Value} : evalItems o context before = .ok vs →
    Runs (.call span function (before ++ e :: after)) e
  | operand {span : Span} {op : UnaryOp} {e : Expr} : Runs (.unary span op e) e
  | left {span : Span} {op : BinaryOp} {e right : Expr} : Runs (.binary span op e right) e
  | right {span : Span} {op : BinaryOp} {left e : Expr} {v : Value} :
    left.eval o context = .ok v → Runs (.binary span op left e) e
  | first {span : Span} {op : LazyOp} {e right : Expr} : Runs (.lazy span op e right) e
  | second {span : Span} {op : LazyOp} {left e : Expr} {v : Value} :
    left.eval o context = .ok v → op.decided? v = none → Runs (.lazy span op left e) e
  | condition {span : Span} {e yes no : Expr} : Runs (.conditional span e yes no) e
  | yes {span : Span} {condition e no : Expr} {v : Value} : condition.eval o context = .ok v →
    v.truthy → Runs (.conditional span condition e no) e
  | no {span : Span} {condition yes e : Expr} {v : Value} : condition.eval o context = .ok v →
    ¬v.truthy → Runs (.conditional span condition yes e) e
  | inner {span : Span} {e : Expr} : Runs (.paren span e) e

/-- The evaluation of the first expression comes to the second one. -/
def Visits : Expr → Expr → Prop := Relation.ReflTransGen (Runs o context)

/-- The step that an expression takes once its parts have values. A function of the caller's own
goes before the builtin one, and `and`, `or` and `??` take no step of two operands. -/
inductive Takes : Expr → Step → Prop where
  | builtin {span : Span} {function : Name} {arguments : List Expr} {b : Builtin}
      {vs : List Value} : o.function? function.text = none →
    Builtin.ofName? function.text = some b → evalItems o context arguments = .ok vs →
    Takes (.call span function arguments) (.builtin b vs)
  | item {span : Span} {object place : Expr} {items : List Value} {v : Value} {i : Nat} :
    object.eval o context = .ok (.array items) → place.eval o context = .ok v →
    Value.resolve items.length v = .ok i →
    Takes (.index span object place) (.element i items.length)
  | character {span : Span} {object place : Expr} {s : String} {v : Value} {i : Nat} :
    object.eval o context = .ok (.string s) → place.eval o context = .ok v →
    Value.resolve s.toList.length v = .ok i →
    Takes (.index span object place) (.element i s.toList.length)
  | operator {span : Span} {op : BinaryOp} {left right : Expr} {v w : Value} :
    left.eval o context = .ok v → right.eval o context = .ok w →
    Takes (.binary span op left right) (.operator op v w)

end Runs

variable {α : Type} {o : Options} {context : Fields Value} {e d : Expr} {step : Step}

/-! ### Below an expression -/

theorem Runs.mem_children (h : Runs o context e d) : d ∈ e.children := by
  cases h with
  | entry hentries =>
    rw [children, hentries]
    exact List.mem_append_right _ List.mem_cons_self
  | _ => simp [children]

theorem Visits.mem_subterms (h : Visits o context e d) : d ∈ e.subterms := by
  induction h using Relation.ReflTransGen.head_induction_on with
  | refl => exact d.mem_subterms_self
  | head hruns _ ih => exact subterms_subset_of_mem_children hruns.mem_children ih

/-! ### Lists -/

theorem evalItems_cons_eq_ok {rest : List Expr} {vs : List Value} :
    evalItems o context (e :: rest) = .ok vs ↔ ∃ v ws, e.eval o context = .ok v ∧
      evalItems o context rest = .ok ws ∧ vs = v :: ws := by
  rw [evalItems, bind_eq_ok]
  simp only [bind_eq_ok]
  constructor
  · rintro ⟨v, hv, ws, hws, ⟨⟩⟩
    exact ⟨v, ws, hv, hws, rfl⟩
  · rintro ⟨v, ws, hv, hws, rfl⟩
    exact ⟨v, hv, ws, hws, rfl⟩

/-- The steps of a list are those of its items, each behind items that have values. -/
theorem mem_steps_evalItems {items : List Expr} :
    step ∈ (evalItemsLogged o context items).steps ↔ ∃ before e after vs,
      items = before ++ e :: after ∧ evalItems o context before = .ok vs ∧
        step ∈ (e.evalLogged o context).steps := by
  induction items with
  | nil => simp [evalItemsLogged]
  | cons first rest ih =>
    simp only [evalItemsLogged, mem_steps_bind, result_evalLogged, steps_pure, List.not_mem_nil,
      and_false, exists_false, or_false, ih]
    constructor
    · rintro (h | ⟨v, hv, before, e, after, vs, rfl, hvs, h⟩)
      · exact ⟨[], first, rest, [], rfl, rfl, h⟩
      · exact ⟨first :: before, e, after, v :: vs, rfl,
          evalItems_cons_eq_ok.2 ⟨v, vs, hv, hvs, rfl⟩, h⟩
    · rintro ⟨_ | ⟨_, before⟩, e, after, vs, heq, hvs, h⟩
      · cases heq
        exact .inl h
      · cases heq
        obtain ⟨v, ws, hv, hws, -⟩ := evalItems_cons_eq_ok.1 hvs
        exact .inr ⟨v, hv, before, e, after, ws, rfl, hws, h⟩

/-- The names of entries make no difference to the steps. -/
theorem steps_evalEntries (entries : List (String × Expr)) :
    (evalEntriesLogged o context entries).steps =
      (evalItemsLogged o context (entries.map Prod.snd)).steps := by
  induction entries with
  | nil => rfl
  | cons entry rest ih =>
    rw [evalEntriesLogged, List.map_cons, evalItemsLogged, steps_bind, steps_bind]
    simp only [steps_bind_pure, ih]

/-! ### The steps of an expression -/

theorem mem_steps_itemAt {items : List α} {place : Value} :
    step ∈ (Value.itemAtLogged items place).steps ↔
      ∃ i, Value.resolve items.length place = .ok i ∧ step = .element i items.length := by
  simp [Value.itemAtLogged, mem_steps_bind]

theorem mem_steps_index {object place : Value} :
    step ∈ (object.indexLogged place).steps ↔
      (∃ items i, object = .array items ∧ Value.resolve items.length place = .ok i ∧
        step = .element i items.length) ∨
      ∃ s i, object = .string s ∧ Value.resolve s.toList.length place = .ok i ∧
        step = .element i s.toList.length := by
  cases object <;> simp [Value.indexLogged, mem_steps_bind, mem_steps_itemAt]

theorem mem_steps_call {name : String} {arguments : List Value} :
    step ∈ (o.callLogged name arguments).steps ↔ ∃ b, o.function? name = none ∧
      Builtin.ofName? name = some b ∧ step = .builtin b arguments := by
  unfold Options.callLogged
  split
  · next b hf hb => simp [hf, hb]
  · next h =>
    rw [steps_ofResult]
    refine iff_of_false List.not_mem_nil ?_
    rintro ⟨b, hf, hb, -⟩
    exact h b hf hb

theorem Takes.mem_steps (h : Takes o context e step) : step ∈ (e.evalLogged o context).steps := by
  cases h with
  | builtin hf hb hvs =>
    rw [evalLogged, mem_steps_bind, result_evalItemsLogged]
    exact .inr ⟨_, hvs, mem_steps_call.2 ⟨_, hf, hb, rfl⟩⟩
  | item hobject hplace hi =>
    simp only [evalLogged, mem_steps_bind, result_evalLogged]
    exact .inr ⟨_, hobject, .inr ⟨_, hplace, mem_steps_index.2 (.inl ⟨_, _, rfl, hi, rfl⟩)⟩⟩
  | character hobject hplace hi =>
    simp only [evalLogged, mem_steps_bind, result_evalLogged]
    exact .inr ⟨_, hobject, .inr ⟨_, hplace, mem_steps_index.2 (.inr ⟨_, _, rfl, hi, rfl⟩)⟩⟩
  | operator hleft hright =>
    simp only [evalLogged, mem_steps_bind, result_evalLogged, steps_did]
    exact .inr ⟨_, hleft, .inr ⟨_, hright, List.mem_singleton_self _⟩⟩

/-- What an evaluation goes on to is recorded. -/
theorem Runs.mem_steps (h : Runs o context e d) (hstep : step ∈ (d.evalLogged o context).steps) :
    step ∈ (e.evalLogged o context).steps := by
  cases h with
  | item hvs | argument hvs =>
    rw [evalLogged, mem_steps_bind]
    exact .inl (mem_steps_evalItems.2 ⟨_, d, _, _, rfl, hvs, hstep⟩)
  | entry hentries hvs =>
    rw [evalLogged, mem_steps_bind, steps_evalEntries]
    exact .inl (mem_steps_evalItems.2 ⟨_, d, _, _, hentries, hvs, hstep⟩)
  | object | list | operand | left | first | condition =>
    rw [evalLogged, mem_steps_bind]
    exact .inl hstep
  | place hv | right hv =>
    simp only [evalLogged, mem_steps_bind, result_evalLogged]
    exact .inr ⟨_, hv, .inl hstep⟩
  | second hv hnone =>
    simp only [evalLogged, mem_steps_bind, result_evalLogged]
    refine .inr ⟨_, hv, ?_⟩
    simp only [hnone, mem_steps_bind]
    exact .inl hstep
  | yes hv htruthy =>
    simp only [evalLogged, mem_steps_bind, result_evalLogged]
    exact .inr ⟨_, hv, by rwa [if_pos htruthy]⟩
  | no hv htruthy =>
    simp only [evalLogged, mem_steps_bind, result_evalLogged]
    exact .inr ⟨_, hv, by rwa [if_neg htruthy]⟩
  | inner =>
    rw [evalLogged]
    exact hstep

/-- An expression has no steps but one of its own and those of what its evaluation goes on to. -/
theorem takes_or_runs (h : step ∈ (e.evalLogged o context).steps) :
    Takes o context e step ∨ ∃ d, Runs o context e d ∧ step ∈ (d.evalLogged o context).steps := by
  cases e with
  | int | float | string | bool | nil | identifier =>
    simp only [evalLogged, steps_ofResult] at h
    cases h
  | array _ items =>
    simp only [evalLogged, mem_steps_bind, steps_pure, List.not_mem_nil, and_false, exists_false,
      or_false] at h
    obtain ⟨before, d, after, vs, rfl, hvs, hstep⟩ := mem_steps_evalItems.1 h
    exact .inr ⟨d, .item hvs, hstep⟩
  | map _ entries =>
    simp only [evalLogged, mem_steps_bind, steps_pure, List.not_mem_nil, and_false, exists_false,
      or_false, steps_evalEntries] at h
    obtain ⟨before, d, after, vs, hentries, hvs, hstep⟩ := mem_steps_evalItems.1 h
    exact .inr ⟨d, .entry hentries hvs, hstep⟩
  | member _ object field =>
    simp only [evalLogged, mem_steps_bind, steps_ofResult, List.not_mem_nil, and_false,
      exists_false, or_false] at h
    exact .inr ⟨object, .object, h⟩
  | index _ object place =>
    simp only [evalLogged, mem_steps_bind, result_evalLogged] at h
    rcases h with h | ⟨v, hv, h | ⟨w, hw, h⟩⟩
    · exact .inr ⟨object, .list, h⟩
    · exact .inr ⟨place, .place hv, h⟩
    · rcases mem_steps_index.1 h with ⟨items, i, rfl, hi, rfl⟩ | ⟨s, i, rfl, hi, rfl⟩
      · exact .inl (.item hv hw hi)
      · exact .inl (.character hv hw hi)
  | call _ function arguments =>
    rw [evalLogged, mem_steps_bind, result_evalItemsLogged] at h
    rcases h with h | ⟨vs, hvs, h⟩
    · obtain ⟨before, d, after, vs, rfl, hvs, hstep⟩ := mem_steps_evalItems.1 h
      exact .inr ⟨d, .argument hvs, hstep⟩
    · obtain ⟨b, hf, hb, rfl⟩ := mem_steps_call.1 h
      exact .inl (.builtin hf hb hvs)
  | unary _ op operand =>
    simp only [evalLogged, mem_steps_bind, steps_ofResult, List.not_mem_nil, and_false,
      exists_false, or_false] at h
    exact .inr ⟨operand, .operand, h⟩
  | binary _ op left right =>
    simp only [evalLogged, mem_steps_bind, result_evalLogged, steps_did, List.mem_singleton] at h
    rcases h with h | ⟨v, hv, h | ⟨w, hw, rfl⟩⟩
    · exact .inr ⟨left, .left, h⟩
    · exact .inr ⟨right, .right hv, h⟩
    · exact .inl (.operator hv hw)
  | lazy _ op left right =>
    simp only [evalLogged, mem_steps_bind, result_evalLogged] at h
    rcases h with h | ⟨v, hv, h⟩
    · exact .inr ⟨left, .first, h⟩
    · cases hdecided : op.decided? v with
      | some w =>
        simp only [hdecided, steps_pure] at h
        cases h
      | none =>
        simp only [hdecided, mem_steps_bind, steps_pure, List.not_mem_nil, and_false, exists_false,
          or_false] at h
        exact .inr ⟨right, .second hv hdecided, h⟩
  | conditional _ condition yes no =>
    simp only [evalLogged, mem_steps_bind, result_evalLogged] at h
    rcases h with h | ⟨v, hv, h⟩
    · exact .inr ⟨condition, .condition, h⟩
    · split at h
      · next htruthy => exact .inr ⟨yes, .yes hv htruthy, h⟩
      · next htruthy => exact .inr ⟨no, .no hv htruthy, h⟩
  | paren _ inner =>
    rw [evalLogged] at h
    exact .inr ⟨inner, .inner, h⟩

/-- The record of an evaluation is complete, and has nothing else: the steps are those of the
expressions that the evaluation comes to. -/
theorem mem_steps_iff : step ∈ (e.evalLogged o context).steps ↔
    ∃ d, e.Visits o context d ∧ Takes o context d step := by
  constructor
  · intro h
    induction e using induction_children with
    | h e ih =>
      rcases takes_or_runs h with htakes | ⟨d, hruns, hstep⟩
      · exact ⟨e, .refl, htakes⟩
      · obtain ⟨d', hvisits, htakes⟩ := ih d hruns.mem_children hstep
        exact ⟨d', .head hruns hvisits, htakes⟩
  · rintro ⟨d, hvisits, htakes⟩
    induction hvisits using Relation.ReflTransGen.head_induction_on with
    | refl => exact htakes.mem_steps
    | head hruns _ ih => exact hruns.mem_steps ih

end Expr

end JsonTemplate
