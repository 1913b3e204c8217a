import JsonTemplate.Proofs.Grammar.Progress

/-! Parsers do not look ahead. What a parser does up to some token depends on the tokens up to
that one only: behind it the list may go on in any way. The one step that looks past the next
token, at the parenthesis of a call, consumes the next token then. -/

namespace JsonTemplate

open Token (Kind)

variable {b b' : List Token}

namespace ParserState

variable {s s' : ParserState}

/-- The states differ in the tokens behind some of those left, which are `b` and `b'`. -/
structure Shares (b b' : List Token) (s s' : ParserState) : Prop where
  rest : ∃ a, s.rest = a ++ b ∧ s'.rest = a ++ b'
  previous : s'.previous = s.previous
  depth : s'.depth = s.depth
  faults : s'.faults = s.faults

/-- The next token is a shared one. -/
theorem Shares.exists_cons (h : Shares b b' s s') (hlt : b.length < s.rest.length) :
    ∃ token a, s.rest = token :: a ++ b ∧ s'.rest = token :: a ++ b' := by
  obtain ⟨_ | ⟨token, a⟩, hs, hs'⟩ := h.rest
  · rw [hs] at hlt
    exact absurd hlt (Nat.lt_irrefl _)
  · exact ⟨token, a, hs, hs'⟩

theorem Shares.length_pos (h : Shares b b' s s') (hlt : b.length < s.rest.length) :
    0 < s'.rest.length := by
  obtain ⟨token, a, -, hs'⟩ := h.exists_cons hlt
  rw [hs']
  exact Nat.succ_pos _

theorem current?_of_rest {token : Token} {a : List Token} (h : s.rest = token :: a) :
    s.current? = some token := by
  rw [current?, h]

theorem rest_next {token : Token} {a : List Token} (h : s.rest = token :: a) :
    s.next.rest = a := by
  rw [next, h]

theorem previous_next {token : Token} {a : List Token} (h : s.rest = token :: a) :
    s.next.previous = token.span := by
  rw [next, h]

section Next
variable (h : Shares b b' s s') (hlt : b.length < s.rest.length)
include h hlt

theorem Shares.current? : s'.current? = s.current? := by
  obtain ⟨token, a, hs, hs'⟩ := h.exists_cons hlt
  rw [current?_of_rest hs, current?_of_rest hs']

theorem Shares.kind : s'.kind = s.kind := by
  rw [ParserState.kind, h.current? hlt, ParserState.kind]

theorem Shares.here : s'.here = s.here := by
  rw [ParserState.here, h.current? hlt, ParserState.here]

theorem Shares.next : Shares b b' s.next s'.next := by
  obtain ⟨token, a, hs, hs'⟩ := h.exists_cons hlt
  exact ⟨⟨a, rest_next hs, rest_next hs'⟩, by rw [previous_next hs, previous_next hs'],
    by rw [depth_next, depth_next, h.depth], by rw [faults_next, faults_next, h.faults]⟩

theorem Shares.report (fault : Fault) : Shares b b' (s.report fault) (s'.report fault) :=
  ⟨h.rest, h.previous, h.depth, by rw [ParserState.report, h.here hlt, h.faults,
    ParserState.report]⟩

end Next

theorem Shares.withDepth (h : Shares b b' s s') (depth : Nat) :
    Shares b b' { s with depth := depth } { s' with depth := depth } :=
  ⟨h.rest, h.previous, rfl, h.faults⟩

theorem Shares.leave (h : Shares b b' s s') : Shares b b' s.leave s'.leave :=
  ⟨h.rest, h.previous, congrArg (· - 1) h.depth, h.faults⟩

/-- The token behind the next one is shared if the next one is consumed and a shared one left. -/
theorem Shares.following (h : Shares b b' s s') (hlt : b.length < s.next.rest.length) :
    s'.following = s.following := by
  have hlt' : b.length < s.rest.length := Nat.lt_of_lt_of_le hlt (leads_next s).length
  obtain ⟨token, a, hs, hs'⟩ := h.exists_cons hlt'
  rw [rest_next hs] at hlt
  cases a with
  | nil => exact absurd hlt (Nat.lt_irrefl _)
  | cons second a => rw [ParserState.following, ParserState.following, hs, hs']; rfl

end ParserState

namespace Parser

open ParserState (Shares)

variable {α β : Type} {s s' t : ParserState}

/-- Two runs end alike: with the same result, and with the same tokens left up to `b` and `b'`. -/
def EndAlike (b b' : List Token) (run run' : Option α × ParserState) : Prop :=
  run'.1 = run.1 ∧ Shares b b' run.2 run'.2

/-- As long as a shared token is left in the end, what is behind the shared tokens makes no
difference. -/
structure Local (b b' : List Token) (p : Parser α) : Prop where
  proceeds : Proceeds p
  alike {s s' : ParserState} : Shares b b' s s' → b.length < (p s).2.rest.length →
    EndAlike b b' (p s) (p s')

theorem Local.length {p : Parser α} (h : Local b b' p)
    (hlt : b.length < (p s).2.rest.length) : b.length < s.rest.length :=
  Nat.lt_of_lt_of_le hlt (h.proceeds s).length

/-! ### Elementary steps -/

section Steps
variable {f : ParserState → α}
  (h : ∀ {s s'}, Shares b b' s s' → b.length < s.rest.length → f s' = f s)
include h

theorem local_read : Local b b' fun s => (some (f s), s) :=
  ⟨fun s => .refl s, fun hs hlt => ⟨congrArg some (h hs hlt), hs⟩⟩

theorem local_next : Local b b' fun s => (some (f s), s.next) := by
  refine ⟨ParserState.leads_next, fun {s s'} hs hlt => ?_⟩
  have hrest : b.length < s.rest.length := Nat.lt_of_lt_of_le hlt (ParserState.leads_next s).length
  exact ⟨congrArg some (h hs hrest), hs.next hrest⟩

end Steps

theorem local_report {fault : ParserState → Fault}
    (h : ∀ {s s'}, Shares b b' s s' → b.length < s.rest.length → fault s' = fault s) :
    Local b b' fun s => ((none, s.report (fault s)) : Option α × ParserState) :=
  ⟨fun s => ParserState.leads_report s _,
    fun hs hlt => ⟨rfl, h hs hlt ▸ hs.report hlt _⟩⟩

/-- A parser that goes by the next symbol. -/
theorem local_ite {symbol : Symbol} {p q : Parser α} (hp : Local b b' p) (hq : Local b b' q) :
    Local b b' fun s => if s.kind = .symbol symbol then p s else q s := by
  constructor
  · intro s
    by_cases hk : s.kind = .symbol symbol
    · simp only [if_pos hk]
      exact hp.proceeds s
    · simp only [if_neg hk]
      exact hq.proceeds s
  · intro s s' hs hlt
    by_cases hk : s.kind = .symbol symbol
    · simp only [if_pos hk] at hlt ⊢
      rw [if_pos ((hs.kind (hp.length hlt)).trans hk)]
      exact hp.alike hs hlt
    · simp only [if_neg hk] at hlt ⊢
      rw [if_neg (hs.kind (hq.length hlt) ▸ hk)]
      exact hq.alike hs hlt

theorem local_enter : Local b b' enter := by
  refine ⟨closed_proceeds.enter, fun {s s'} hs hlt => ?_⟩
  unfold enter at hlt ⊢
  rw [hs.depth]
  by_cases hd : s.depth < nestingLimit
  · simp only [if_pos hd]
    exact ⟨rfl, hs.withDepth _⟩
  · simp only [if_neg hd] at hlt ⊢
    exact ⟨rfl, hs.report hlt _⟩

theorem Local.bind {p : Parser α} {f : α → Parser β} (hp : Local b b' p)
    (hf : ∀ a, Local b b' (f a)) : Local b b' (p >>= f) := by
  refine ⟨closed_proceeds.bind hp.proceeds fun a => (hf a).proceeds, fun {s s'} hs hlt => ?_⟩
  have halike := hp.alike hs
  cases hrun : p s with
  | mk found t =>
    cases hrun' : p s' with
    | mk found' t' =>
      rw [hrun, hrun'] at halike
      cases found with
      | none =>
        rw [bind_of_none hrun] at hlt ⊢
        obtain ⟨rfl, ht⟩ := halike hlt
        rw [bind_of_none hrun']
        exact ⟨rfl, ht⟩
      | some a =>
        rw [bind_of_some hrun] at hlt ⊢
        obtain ⟨rfl, ht⟩ := halike ((hf a).length hlt)
        rw [bind_of_some hrun']
        exact (hf a).alike ht hlt

theorem Local.restoring {p : Parser α} (h : Local b b' p) : Local b b' (restoring p) := by
  refine ⟨closed_proceeds.restoring h.proceeds, fun {s s'} hs hlt => ?_⟩
  obtain ⟨hfound, hshares⟩ := h.alike hs hlt
  refine ⟨hfound, ?_⟩
  show Shares b b' { (p s).2 with depth := s.depth } { (p s').2 with depth := s'.depth }
  rw [hs.depth]
  exact hshares.withDepth _

/-- One level deeper both runs start from the same level, and both give it back. -/
theorem Local.nested {p : Parser α} (h : Local b b' p) : Local b b' (nested p) := by
  refine ⟨closed_proceeds.nested h.proceeds, fun {s s'} hs hlt => ?_⟩
  have hdepth := hs.depth
  by_cases hd : s.depth < nestingLimit
  · rw [nested_of_lt p hd] at hlt ⊢
    rw [nested_of_lt p (by rwa [hdepth]), hdepth]
    obtain ⟨hfound, hshares⟩ := h.alike (hs.withDepth _) hlt
    exact ⟨hfound, hshares.leave⟩
  · rw [nested_of_not_lt p hd] at hlt ⊢
    rw [nested_of_not_lt p (by rwa [hdepth])]
    exact ⟨rfl, hs.report hlt _⟩

/-- A look past the next token is local if that token is consumed then. -/
theorem local_lookahead {f : Kind → Span → Parser α} (h : ∀ k span, Local b b' (f k span)) :
    Local b b' (following >>= fun k => advance >>= f k) := by
  have hproceeds (k : Kind) : Proceeds (advance >>= f k) :=
    closed_proceeds.bind closed_proceeds.advance fun span => (h k span).proceeds
  refine ⟨closed_proceeds.bind closed_proceeds.following hproceeds, fun {s s'} hs hlt => ?_⟩
  have hnext : b.length < s.next.rest.length := (h s.following s.here).length hlt
  have hrest := Nat.lt_of_lt_of_le hnext (ParserState.leads_next s).length
  rw [following_bind, advance_bind] at hlt ⊢
  rw [following_bind, advance_bind, hs.following hnext, hs.here hrest]
  exact (h _ _).alike (hs.next hrest) hlt

theorem stepwise_local (b b' : List Token) : Stepwise (Local b b') where
  pure a := local_read fun _ _ => rfl
  bind := Local.bind
  kind := local_read fun hs hlt => hs.kind hlt
  here := local_read fun hs hlt => hs.here hlt
  previous := local_read fun hs _ => hs.previous
  advance := local_next fun hs hlt => hs.here hlt
  fail _ := local_report fun _ _ => rfl
  eat _ := local_ite (local_next fun _ _ => rfl) (local_read fun _ _ => rfl)
  expect _ := local_ite (local_next fun _ _ => rfl)
    (local_report fun hs hlt => by rw [hs.kind hlt])
  enter := local_enter
  restoring := Local.restoring
  nested := Local.nested

/-! ### Lists -/

theorem bind_congr {p : Parser α} {f g : α → Parser β}
    (h : ∀ a t, p s = (some a, t) → f a t = g a t) : (p >>= f) s = (p >>= g) s := by
  rw [bind_apply, bind_apply]
  split
  · next a t hrun => exact h a t hrun
  · rfl

theorem bind_pure_snd (p : Parser α) (g : α → β) (s : ParserState) :
    ((p >>= fun a => pure (g a)) s).2 = (p s).2 := by
  rw [bind_apply]
  split
  · next a t hrun => rw [hrun, pure_apply]
  · next t hrun => rw [hrun]

/-- It makes no difference how many rounds there may be, if there are enough of them for the tokens
left and some token stays. -/
theorem itemsFrom_rounds {item : Parser α} (hproceeds : Proceeds item) (close : Symbol)
    {rounds rounds' : Nat} (hrounds : s.rest.length + 2 ≤ rounds)
    (hrounds' : s.rest.length + 2 ≤ rounds')
    (hleft : 0 < (itemsFrom item close rounds s).2.rest.length) :
    itemsFrom item close rounds s = itemsFrom item close rounds' s := by
  induction rounds generalizing rounds' s with
  | zero => omega
  | succ rounds ih =>
    obtain ⟨rounds', rfl⟩ : ∃ n, rounds' = n + 1 := ⟨rounds' - 1, by omega⟩
    rw [itemsFrom, kind_bind] at hleft ⊢
    rw [itemsFrom, kind_bind]
    by_cases hclose : s.kind = .symbol close
    · rw [if_pos hclose, if_pos hclose]
    rw [if_neg hclose] at hleft ⊢
    rw [if_neg hclose]
    refine bind_congr fun first t hfirst => bind_congr fun more u hmore => ?_
    rw [bind_of_some hfirst, bind_of_some hmore] at hleft
    cases more with
    | false => rfl
    | true =>
      obtain ⟨-, rfl⟩ := eat_eq_true.1 hmore
      rw [if_pos rfl, bind_pure_snd] at hleft
      -- A token is left behind the comma, so there was one more in front of it.
      have hbehind := Nat.lt_of_lt_of_le hleft
        (closed_proceeds.itemsFrom hproceeds close rounds t.next).length
      have hlength := (hproceeds.leads hfirst).length
      rw [ParserState.length_rest_next] at hbehind
      have henough : t.next.rest.length + 3 ≤ s.rest.length + 2 := by
        rw [ParserState.length_rest_next]
        omega
      have hitems : itemsFrom item close rounds t.next = itemsFrom item close rounds' t.next :=
        ih (by omega) (by omega) hleft
      simp only [if_pos, bind_apply, hitems]

theorem local_items {item : Parser α} (h : Local b b' item) (close : Symbol) :
    Local b b' (items item close) := by
  refine ⟨closed_proceeds.guarded.items h.proceeds close, fun {s s'} hs hlt => ?_⟩
  obtain ⟨n, hn, hn'⟩ : ∃ n, s.rest.length + 2 ≤ n ∧ s'.rest.length + 2 ≤ n :=
    ⟨_, Nat.le_max_left _ _, Nat.le_max_right _ _⟩
  have hitems : items item close s = itemsFrom item close n s :=
    itemsFrom_rounds h.proceeds close (Nat.le_refl _) hn (Nat.zero_lt_of_lt hlt)
  rw [hitems] at hlt ⊢
  have halike := ((stepwise_local b b').itemsFrom h close n).alike hs hlt
  have hitems' : itemsFrom item close n s' = items item close s' :=
    itemsFrom_rounds h.proceeds close hn' (Nat.le_refl _) (halike.2.length_pos hlt)
  rwa [hitems'] at halike

theorem guarded_local (b b' : List Token) : Guarded (Local b b') where
  toStepwise := stepwise_local b b'
  lookahead := local_lookahead
  items := local_items

end Parser

namespace Parsing

open JsonTemplate.Parser

variable {before after : List Token} {t : Token} {s : ParserState} {found : Option Expr}

theorem shares_start (before after after' : List Token) (t : Token) :
    ParserState.Shares after after' (start (before ++ t :: after))
      (start (before ++ t :: after')) :=
  ⟨⟨before ++ [t], by simp [start], by simp [start]⟩, rfl, rfl, rfl⟩

/-- The tokens behind the one in front of which reading an expression ends make no difference. -/
theorem ofTokens_alike (hrun : expression (start (before ++ t :: after)) = (found, s))
    (hs : s.rest = t :: after) (after' : List Token) :
    ofTokens (before ++ t :: after') = ofTokens (before ++ t :: after) := by
  have hstart := shares_start before after after' t
  have hleft : after.length < s.rest.length := by
    rw [hs]
    exact Nat.lt_succ_self _
  have hexpression : Local after after' expression :=
    (guarded_local after after').expressionWithin _
  have hlt : after.length < (start (before ++ t :: after)).rest.length :=
    hexpression.length (by rwa [hrun])
  have halike := hexpression.alike hstart (by rwa [hrun])
  cases hrun' : expression (start (before ++ t :: after')) with
  | mk found' s' =>
    rw [hrun, hrun'] at halike
    have hfound : found' = found := halike.1
    have hends : ParserState.Shares after after' s s' := halike.2
    subst hfound
    unfold ofTokens
    cases found' <;> simp only [hrun, hrun', hstart.kind hlt, hends.kind hleft,
      (hstart.report hlt _).faults, (hends.report hleft _).faults, hends.faults]

end Parsing

end JsonTemplate
