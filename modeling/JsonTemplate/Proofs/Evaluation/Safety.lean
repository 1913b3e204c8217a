import JsonTemplate.Proofs.Compilation
import JsonTemplate.Proofs.Evaluation.Visits

/-! Runs of compiled programs are safe. A program compiles only if all its calls are resolved,
wherever they stand, and a resolved call finds its function and all arguments. -/

namespace JsonTemplate

/-! ### Resolved calls -/

/-- All calls among the nodes name a function that takes as many arguments. -/
def Options.Resolves (o : Options) (nodes : List Expr) : Prop :=
  ∀ span function arguments, Expr.call span function arguments ∈ nodes →
    o.callFault? function.text arguments.length = none

section Resolves
variable {o : Options}

theorem Options.Resolves.mono {nodes more : List Expr} (h : o.Resolves more) (hle : nodes ⊆ more) :
    o.Resolves nodes := fun s f as hm => h s f as (hle hm)

theorem callFault?_of_accepts {name : String} {given : Nat} (h : o.accepts name given) :
    o.callFault? name given = none := by
  rw [← Option.not_isSome_iff_eq_none, Options.isSome_callFault?, h]
  nofun

/-- A text compiles to an expression with all calls resolved. -/
theorem Program.resolves_of_compile {source : String} {p : Program}
    (h : compile o source = .ok p) : p.options = o ∧ o.Resolves p.expr.subterms := by
  obtain ⟨-, hoptions, -, -, -, hcalls⟩ := compile_eq_ok_iff.1 h
  exact ⟨hoptions, fun span function arguments hmem =>
    callFault?_of_accepts (hcalls span function arguments hmem)⟩

end Resolves

/-! ### Safe steps -/

/-- A function gets as many arguments as it takes and lacks none, an item is taken from inside
its list, and an operator is applied to two values only where the tree has it between two operands
that are both needed. -/
def Step.Safe (tree : Expr) : Step → Prop
  | .builtin b arguments => b.arity.accepts arguments.length ∧
    ∀ function, b.call arguments ≠ .error (.missingArgument function)
  | .element place length => place < length
  | .operator op _ _ => ∃ span left right, Expr.binary span op left right ∈ tree.subterms

/-- The kinds of errors that a run can end in. -/
def EvalError.Kind.ofRuns : List EvalError.Kind :=
  [.arithmetic, .nilAccess, .indexRange, .type, .function]

theorem Options.accepts_of_callFault? {o : Options} {name : String} {given : Nat} {b : Builtin}
    (h : o.callFault? name given = none) (hf : o.function? name = none)
    (hb : Builtin.ofName? name = some b) : b.arity.accepts given := by
  by_contra haccepts
  simp [callFault?, hf, hb, haccepts] at h

namespace Expr

theorem length_evalItems {o : Options} {context : Fields Value} {items : List Expr}
    {vs : List Value} (h : evalItems o context items = .ok vs) : vs.length = items.length := by
  induction items generalizing vs with
  | nil => cases h; rfl
  | cons e rest ih =>
    obtain ⟨v, ws, -, hws, rfl⟩ := evalItems_cons_eq_ok.1 h
    rw [List.length_cons, List.length_cons, ih hws]

section
variable {o : Options} {context : Fields Value} {tree e : Expr} {step : Step}

/-- Where a call is resolved, its function gets all its arguments. -/
theorem Takes.safe (h : Takes o context e step) (he : e ∈ tree.subterms)
    (hresolves : o.Resolves tree.subterms) : step.Safe tree := by
  cases h with
  | @builtin span function arguments b vs hf hb hvs =>
    have haccepts : b.arity.accepts vs.length := by
      rw [length_evalItems hvs]
      exact Options.accepts_of_callFault? (hresolves span function arguments he) hf hb
    exact ⟨haccepts, Builtin.call_ne_missingArgument haccepts⟩
  | item _ _ hi | character _ _ hi => exact Value.resolve_lt hi
  | @operator span op left right v w _ _ => exact ⟨span, left, right, he⟩

end

end Expr

/-! ### The errors of runs -/

open EvalError (Kind)

theorem Options.failsWith_call {o : Options} {name : String} {arguments : List Value}
    (h : o.callFault? name arguments.length = none) :
    FailsWith Kind.ofRuns (o.call name arguments) := by
  unfold call
  cases hf : o.function? name with
  | some f =>
    simp only
    split
    · exact failsWith_ok _
    · exact failsWith_error (by simp [EvalError.kind, Kind.ofRuns])
  | none =>
    cases hb : Builtin.ofName? name with
    | none => simp [callFault?, hf, hb] at h
    | some b => exact (Builtin.failsWith_call (accepts_of_callFault? h hf hb)).mono (by decide)

namespace Expr

section
variable {o : Options} {context : Fields Value}

theorem failsWith_evalItems {items : List Expr}
    (h : ∀ e ∈ items, FailsWith Kind.ofRuns (e.eval o context)) :
    FailsWith Kind.ofRuns (evalItems o context items) := by
  induction items with
  | nil => exact failsWith_ok _
  | cons e rest ih =>
    obtain ⟨he, hrest⟩ := List.forall_mem_cons.1 h
    exact he.bind fun _ _ => (ih hrest).bind fun _ _ => failsWith_ok _

theorem failsWith_evalEntries {entries : List (String × Expr)}
    (h : ∀ e ∈ entries.map Prod.snd, FailsWith Kind.ofRuns (e.eval o context)) :
    FailsWith Kind.ofRuns (evalEntries o context entries) := by
  induction entries with
  | nil => exact failsWith_ok _
  | cons entry rest ih =>
    obtain ⟨he, hrest⟩ := List.forall_mem_cons.1 h
    exact he.bind fun _ _ => (ih hrest).bind fun _ _ => failsWith_ok _

/-- With all calls resolved, an evaluation fails with errors of few kinds. -/
theorem failsWith_eval {e : Expr} (h : o.Resolves e.subterms) :
    FailsWith Kind.ofRuns (e.eval o context) := by
  induction e using induction_children with
  | h e ih =>
    have hchild (child : Expr) (hmem : child ∈ e.children) :
        FailsWith Kind.ofRuns (child.eval o context) :=
      ih child hmem (h.mono (subterms_subset_of_mem_children hmem))
    cases e with
    | int | string | bool | nil | identifier => exact failsWith_ok _
    | float _ x => exact (Number.failsWith_finite x).mono (by decide)
    | array _ items =>
      exact (failsWith_evalItems hchild).bind fun _ _ => failsWith_ok _
    | map _ entries =>
      exact (failsWith_evalEntries hchild).bind fun _ _ => failsWith_ok _
    | member _ object field =>
      exact (hchild object (by simp [children])).bind fun v _ =>
        (v.failsWith_member field.text).mono (by decide)
    | index _ object place =>
      exact (hchild object (by simp [children])).bind fun v _ =>
        (hchild place (by simp [children])).bind fun w _ => (v.failsWith_index w).mono (by decide)
    | call span function arguments =>
      refine (failsWith_evalItems hchild).bind fun vs hvs => ?_
      apply Options.failsWith_call
      rw [length_evalItems hvs]
      exact h span function arguments (mem_subterms_self _)
    | unary _ op operand =>
      exact (hchild operand (by simp [children])).bind fun v _ =>
        (op.failsWith_apply v).mono (by decide)
    | binary _ op left right =>
      exact (hchild left (by simp [children])).bind fun v _ =>
        (hchild right (by simp [children])).bind fun w _ => (op.failsWith_apply v w).mono (by decide)
    | lazy _ op left right =>
      refine (hchild left (by simp [children])).bind fun v _ => ?_
      cases op.decided? v with
      | some w => exact failsWith_ok _
      | none =>
        exact (hchild right (by simp [children])).bind fun _ _ => failsWith_ok _
    | conditional _ condition yes no =>
      refine (hchild condition (by simp [children])).bind fun v _ => ?_
      split
      · exact hchild yes (by simp [children])
      · exact hchild no (by simp [children])
    | paren _ inner => exact hchild inner (by simp [children])

end

end Expr

/-- Whatever the context, a program that compiles runs to a value or to an error of five kinds.
The record of the run has the steps of just the expressions that the run comes to, and all of them
are safe: every builtin function is called with as many arguments as it takes, items are taken from
inside their lists only, and operators of two values are those of the program. -/
theorem Program.run_safe {o : Options} {source : String} {p : Program}
    (h : compile o source = .ok p) (context : Fields Value) :
    (p.runLogged context).result = p.run context ∧
    (∀ step, step ∈ (p.runLogged context).steps ↔
      ∃ e, p.expr.Visits o context e ∧ e.Takes o context step) ∧
    (∀ step ∈ (p.runLogged context).steps, step.Safe p.expr) ∧
    ∀ e, p.run context = .error e →
      e.kind ∈ [.arithmetic, .nilAccess, .indexRange, .type, .function] := by
  obtain ⟨rfl, hresolves⟩ := resolves_of_compile h
  refine ⟨p.result_runLogged context, fun step => Expr.mem_steps_iff, fun step hstep => ?_,
    Expr.failsWith_eval hresolves⟩
  obtain ⟨e, hvisits, htakes⟩ := Expr.mem_steps_iff.1 hstep
  exact htakes.safe hvisits.mem_subterms hresolves

/-- A program that calls a builtin function and takes an item. -/
theorem Program.run_safe_split :
    ∃ p, compile .empty "split('a,b', ',')[1]" = .ok p ∧
      (p.runLogged []).result = p.run [] ∧
      (∀ step ∈ (p.runLogged []).steps, step.Safe p.expr) ∧
      ∀ e, p.run [] = .error e →
        e.kind ∈ [.arithmetic, .nilAccess, .indexRange, .type, .function] := by
  have hcompiles : (compile .empty "split('a,b', ',')[1]").isOk := by decide +kernel
  cases hp : compile .empty "split('a,b', ',')[1]" with
  | error report =>
    rw [hp] at hcompiles
    cases hcompiles
  | ok p =>
    obtain ⟨hresult, -, hsafe, hkinds⟩ := run_safe hp []
    exact ⟨p, rfl, hresult, hsafe, hkinds⟩

end JsonTemplate
