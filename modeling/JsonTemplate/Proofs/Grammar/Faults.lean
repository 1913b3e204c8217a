import JsonTemplate.Proofs.Grammar.Invariants

/-! How many faults the parser finds, and where. It stops at the first one within an expression,
and finds one whenever it gives no expression. Behind an expression it finds one if tokens are left.
A fault is always at one of the tokens. -/

namespace JsonTemplate

namespace Parser

/-- A parser that gives a result finds no fault, and one that gives none finds exactly one, which
is not about what stands behind an expression. -/
structure StopsAtFault {α : Type} (p : Parser α) : Prop where
  of_some {s s' : ParserState} {a : α} : p s = (some a, s') → s'.faults = s.faults
  of_none {s s' : ParserState} : p s = (none, s') →
    ∃ f : LocatedFault, f.fault.isTrailing = false ∧ s'.faults = s.faults ++ [f]

theorem stopsAtFault_read {α : Type} (f : ParserState → α) :
    StopsAtFault fun s => (some (f s), s) := by
  constructor
  · intro s s' a h
    cases h
    rfl
  · nofun

theorem closed_stopsAtFault : Closed StopsAtFault where
  pure a := stopsAtFault_read fun _ => a
  bind hp hf := by
    constructor
    · intro s s' b h
      obtain ⟨a, t, ha, hb⟩ := bind_eq_some.1 h
      rw [(hf a).of_some hb, hp.of_some ha]
    · intro s s' h
      rcases bind_eq_none.1 h with ha | ⟨a, t, ha, hb⟩
      · exact hp.of_none ha
      · rw [← hp.of_some ha]
        exact (hf a).of_none hb
  kind := stopsAtFault_read _
  following := stopsAtFault_read _
  here := stopsAtFault_read _
  previous := stopsAtFault_read _
  advance := by
    constructor
    · intro s s' span h
      cases h
      exact s.faults_next
    · nofun
  fail hfault := by
    constructor
    · nofun
    · intro s s' h
      cases h
      exact ⟨_, hfault, rfl⟩
  eat symbol := by
    constructor
    · intro s s' b h
      unfold eat at h
      split at h
      · cases h
        exact s.faults_next
      · cases h
        rfl
    · intro s s' h
      unfold eat at h
      split at h <;> cases h
  expect symbol := by
    constructor
    · intro s s' u h
      obtain ⟨-, rfl⟩ := expect_eq_some.1 h
      exact s.faults_next
    · intro s s' h
      unfold expect at h
      split at h
      · cases h
      · cases h
        exact ⟨_, rfl, rfl⟩
  enter := by
    constructor
    · intro s s' u h
      obtain ⟨-, rfl⟩ := enter_eq_some.1 h
      rfl
    · intro s s' h
      unfold enter at h
      split at h
      · cases h
      · cases h
        exact ⟨_, rfl, rfl⟩
  restoring hp := by
    constructor
    · intro s s' a h
      obtain ⟨t, ha, rfl⟩ := restoring_eq.1 h
      have hfaults : t.faults = s.faults := hp.of_some ha
      exact hfaults
    · intro s s' h
      obtain ⟨t, ha, rfl⟩ := restoring_eq.1 h
      have hfault := hp.of_none ha
      exact hfault
  nested {_ p} hp := by
    constructor
    · intro s s' a h
      obtain ⟨-, t, ha, rfl⟩ := nested_eq_some.1 h
      have hfaults := hp.of_some ha
      exact hfaults
    · intro s s' h
      by_cases hd : s.depth < nestingLimit
      · rw [nested_of_lt p hd, leaving_eq] at h
        obtain ⟨t, ha, rfl⟩ := h
        have hfault := hp.of_none ha
        exact hfault
      · rw [nested_of_not_lt p hd] at h
        cases h
        exact ⟨_, rfl, rfl⟩
  chosen hf := ⟨fun {s _ _} h => (hf s).of_some h, fun {s _} h => (hf s).of_none h⟩

theorem stopsAtFault_expression : StopsAtFault expression :=
  closed_stopsAtFault.expressionWithin _

end Parser

/-- There are three ways for parsing to end: with one fault instead of an expression, with an
expression and one fault behind it, and with an expression alone. -/
theorem Parsing.ofTokens_cases (tokens : List Token) :
    (∃ f : LocatedFault, f.fault.isTrailing = false ∧ ofTokens tokens = ⟨none, [f]⟩) ∨
      (∃ e, ∃ f : LocatedFault, f.fault.isTrailing ∧ ofTokens tokens = ⟨some e, [f]⟩) ∨
      ∃ e, ofTokens tokens = ⟨some e, []⟩ := by
  have hstart : (Parser.start tokens).faults = [] := rfl
  unfold ofTokens
  simp only
  split
  · exact .inl ⟨_, rfl, rfl⟩
  split
  · next s h =>
    obtain ⟨f, hf, hfaults⟩ := Parser.stopsAtFault_expression.of_none h
    rw [hfaults, hstart]
    exact .inl ⟨f, hf, rfl⟩
  · next e s h =>
    have hfaults := Parser.stopsAtFault_expression.of_some h
    rw [hstart] at hfaults
    split
    · rw [hfaults]
      exact .inr (.inr ⟨e, rfl⟩)
    · rw [ParserState.report, hfaults]
      exact .inr (.inl ⟨e, _, rfl, rfl⟩)

/-- No expression without a fault. -/
theorem Parsing.exists_expr {tokens : List Token} (h : (ofTokens tokens).faults = []) :
    ∃ e, ofTokens tokens = ⟨some e, []⟩ := by
  rcases ofTokens_cases tokens with ⟨f, -, hparsing⟩ | ⟨e, f, -, hparsing⟩ | hparsing
  · rw [hparsing] at h
    cases h
  · rw [hparsing] at h
    cases h
  · exact hparsing

/-! ### Where faults are -/

/-- What is left to read is among the tokens, and all faults are at some of them. -/
structure ParserState.Keeps (tokens : List Token) (s : ParserState) : Prop where
  rest : s.rest ⊆ tokens
  last : ∃ t ∈ tokens, s.last = some t
  faults : ∀ f ∈ s.faults, ∃ t ∈ tokens, t.span = f.span

namespace ParserState

variable {tokens : List Token} {s : ParserState}

theorem keeps_start (h : tokens ≠ []) : (Parser.start tokens).Keeps tokens :=
  ⟨List.Subset.refl tokens, ⟨_, List.getLast_mem h, List.getLast?_eq_some_getLast h⟩,
    List.forall_mem_nil _⟩

theorem Keeps.next (h : s.Keeps tokens) : s.next.Keeps tokens := by
  obtain ⟨_ | ⟨token, rest⟩, last, previous, depth, faults⟩ := s
  · exact h
  · exact ⟨fun _ ht => h.rest (List.mem_cons_of_mem token ht), h.last, h.faults⟩

/-- The token to be consumed next is one of them, also behind the last one. -/
theorem Keeps.exists_here (h : s.Keeps tokens) : ∃ t ∈ tokens, t.span = s.here := by
  obtain ⟨_ | ⟨token, rest⟩, last, previous, depth, faults⟩ := s
  · obtain ⟨t, ht, hlast⟩ := h.last
    cases hlast
    exact ⟨t, ht, rfl⟩
  · exact ⟨token, h.rest List.mem_cons_self, rfl⟩

theorem Keeps.report (h : s.Keeps tokens) (fault : Fault) : (s.report fault).Keeps tokens :=
  ⟨h.rest, h.last,
    List.forall_mem_append.2 ⟨h.faults, List.forall_mem_singleton.2 h.exists_here⟩⟩

theorem Keeps.withDepth (h : s.Keeps tokens) (depth : Nat) :
    Keeps tokens { s with depth := depth } := ⟨h.rest, h.last, h.faults⟩

end ParserState

namespace Parser

open ParserState (Keeps keeps_start)

variable {tokens : List Token}

/-- The parser reports faults at tokens only. -/
def FaultsAt (tokens : List Token) {α : Type} (p : Parser α) : Prop :=
  ∀ s, s.Keeps tokens → (p s).2.Keeps tokens

theorem closed_faultsAt (tokens : List Token) : Closed (FaultsAt tokens) where
  pure _ _ h := h
  bind {_ _ p _} hp hf s h := by
    rw [bind_apply]
    have hkeeps := hp s h
    split
    · next a t hrun =>
      rw [hrun] at hkeeps
      exact hf a t hkeeps
    · next t hrun =>
      rw [hrun] at hkeeps
      exact hkeeps
  kind _ h := h
  following _ h := h
  here _ h := h
  previous _ h := h
  advance _ h := h.next
  fail _ _ h := h.report _
  eat symbol s h := by
    unfold eat
    split
    · exact h.next
    · exact h
  expect symbol s h := by
    unfold expect
    split
    · exact h.next
    · exact h.report _
  enter s h := by
    unfold enter
    split
    · exact h.withDepth _
    · exact h.report _
  restoring hp s h := (hp s h).withDepth _
  nested {_ p} hp s h := by
    by_cases hd : s.depth < nestingLimit
    · rw [nested_of_lt p hd]
      exact (hp _ (h.withDepth _)).withDepth _
    · rw [nested_of_not_lt p hd]
      exact h.report _
  chosen hf s h := hf s s h

end Parser

/-- Every fault of a list of tokens is at one of them. -/
theorem Parsing.exists_token_of_faults {tokens : List Token} (h : tokens ≠ []) :
    ∀ f ∈ (ofTokens tokens).faults, ∃ t ∈ tokens, t.span = f.span := by
  have hstart := ParserState.keeps_start h
  have hrun : (Parser.expression (Parser.start tokens)).2.Keeps tokens :=
    (Parser.closed_faultsAt tokens).expressionWithin _ _ hstart
  unfold ofTokens
  simp only
  split
  · exact (hstart.report _).faults
  split
  · next s hparse =>
    rw [hparse] at hrun
    exact hrun.faults
  · next e s hparse =>
    rw [hparse] at hrun
    split
    · exact hrun.faults
    · exact (hrun.report _).faults

end JsonTemplate
