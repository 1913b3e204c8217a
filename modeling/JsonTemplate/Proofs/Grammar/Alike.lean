import Mathlib.Data.List.Forall2
import JsonTemplate.Proofs.Grammar.Enclosed

/-! No decision of the parser depends on where the tokens stand. On two lists of tokens of the same
kinds it does the same, up to the places in its trees and faults. -/

namespace JsonTemplate

open Token (Kind)

/-! ### States -/

/-- The states differ in places only. -/
structure ParserState.Alike (s t : ParserState) : Prop where
  kinds : s.kinds = t.kinds
  last : s.last.map Token.kind = t.last.map Token.kind
  depth : s.depth = t.depth
  faults : s.faults.map LocatedFault.fault = t.faults.map LocatedFault.fault

namespace ParserState

variable {s t : ParserState}

theorem kind_eq (s : ParserState) :
    s.kind = (s.kinds.head?.or (s.last.map Token.kind)).getD .eof := by
  obtain ⟨_ | ⟨token, rest⟩, _ | last, previous, depth, faults⟩ := s <;> rfl

theorem following_eq (s : ParserState) : s.following = s.kinds.tail.headD .eof := by
  obtain ⟨_ | ⟨token, _ | ⟨second, rest⟩⟩, last, previous, depth, faults⟩ := s <;> rfl

theorem kinds_next_eq (s : ParserState) : s.next.kinds = s.kinds.tail := by
  obtain ⟨_ | ⟨token, rest⟩, last, previous, depth, faults⟩ := s <;> rfl

@[simp] theorem last_next (s : ParserState) : s.next.last = s.last := by
  unfold next
  split <;> rfl

namespace Alike

theorem kind (h : s.Alike t) : s.kind = t.kind := by
  rw [kind_eq, kind_eq, h.kinds, h.last]

theorem following (h : s.Alike t) : s.following = t.following := by
  rw [following_eq, following_eq, h.kinds]

theorem length_rest (h : s.Alike t) : s.rest.length = t.rest.length := by
  simpa only [ParserState.kinds, List.length_map] using congrArg List.length h.kinds

theorem next (h : s.Alike t) : s.next.Alike t.next where
  kinds := by rw [kinds_next_eq, kinds_next_eq, h.kinds]
  last := by rw [last_next, last_next, h.last]
  depth := by rw [depth_next, depth_next, h.depth]
  faults := by rw [faults_next, faults_next, h.faults]

theorem report (h : s.Alike t) (fault : Fault) : (s.report fault).Alike (t.report fault) where
  kinds := h.kinds
  last := h.last
  depth := h.depth
  faults := by simp only [ParserState.report, List.map_append, List.map_cons, h.faults]

theorem withDepth (h : s.Alike t) (depth : Nat) :
    Alike { s with depth := depth } { t with depth := depth } :=
  ⟨h.kinds, h.last, rfl, h.faults⟩

theorem leave (h : s.Alike t) : s.leave.Alike t.leave :=
  ⟨h.kinds, h.last, congrArg (· - 1) h.depth, h.faults⟩

end Alike

/-- Before the first token only the tokens matter. -/
theorem alike_start {tokens tokens' : List Token}
    (h : tokens.map Token.kind = tokens'.map Token.kind) :
    (Parser.start tokens).Alike (Parser.start tokens') where
  kinds := h
  last := by
    simp only [Parser.start]
    rw [← List.getLast?_map, ← List.getLast?_map, h]
  depth := rfl
  faults := rfl

end ParserState

namespace Parser

open ParserState (Alike)

/-- On states that differ in places only, both parsers fail, or both give results, which are
related. Behind them, too, the states differ in places only. -/
def Agree {α β : Type} (R : α → β → Prop) (p : Parser α) (q : Parser β) : Prop :=
  ∀ ⦃s t : ParserState⦄, s.Alike t → Option.Rel R (p s).1 (q t).1 ∧ (p s).2.Alike (q t).2

/-! ### Elementary steps -/

section Steps
variable {α β γ δ : Type} {R : α → β → Prop} {S : γ → δ → Prop} {p : Parser α} {q : Parser β}

theorem agree_pure {a : α} {b : β} (h : R a b) : Agree R (pure a) (pure b) :=
  fun _ _ hst => ⟨.some h, hst⟩

theorem agree_fail (fault : Fault) : Agree R (fail fault : Parser α) (fail fault : Parser β) :=
  fun _ _ hst => ⟨.none, hst.report fault⟩

theorem Agree.bind {f : α → Parser γ} {g : β → Parser δ} (h : Agree R p q)
    (hf : ∀ a b, R a b → Agree S (f a) (g b)) : Agree S (p >>= f) (q >>= g) := by
  intro s t hst
  obtain ⟨hresult, hstate⟩ := h hst
  rw [bind_apply, bind_apply]
  generalize p s = x at hresult hstate
  generalize q t = y at hresult hstate
  obtain ⟨x, s'⟩ := x
  obtain ⟨y, t'⟩ := y
  cases hresult with
  | none => exact ⟨.none, hstate⟩
  | some hab => exact hf _ _ hab hstate

theorem agree_kind : Agree Eq kind kind := fun _ _ hst => ⟨.some hst.kind, hst⟩

theorem agree_following : Agree Eq following following := fun _ _ hst => ⟨.some hst.following, hst⟩

/-- A parser goes on by the kind of the next token, which is the same on both sides. -/
theorem agree_kind_bind {f : Kind → Parser γ} {g : Kind → Parser δ}
    (h : ∀ k, Agree S (f k) (g k)) : Agree S (kind >>= f) (kind >>= g) := by
  apply agree_kind.bind
  rintro k _ rfl
  exact h k

theorem agree_here_bind {f g : Span → Parser γ} {S : γ → γ → Prop}
    (h : ∀ a b, Agree S (f a) (g b)) : Agree S (here >>= f) (here >>= g) :=
  fun _ _ hst => h _ _ hst

theorem agree_previous_bind {f g : Span → Parser γ} {S : γ → γ → Prop}
    (h : ∀ a b, Agree S (f a) (g b)) : Agree S (previous >>= f) (previous >>= g) :=
  fun _ _ hst => h _ _ hst

theorem agree_advance_bind {f : Span → Parser γ} {g : Span → Parser δ}
    (h : ∀ a b, Agree S (f a) (g b)) : Agree S (advance >>= f) (advance >>= g) :=
  fun _ _ hst => h _ _ hst.next

theorem agree_eat (symbol : Symbol) : Agree Eq (eat symbol) (eat symbol) := by
  intro s t hst
  unfold eat
  rw [hst.kind]
  split
  · exact ⟨.some rfl, hst.next⟩
  · exact ⟨.some rfl, hst⟩

theorem agree_expect (symbol : Symbol) : Agree Eq (expect symbol) (expect symbol) := by
  intro s t hst
  unfold expect
  rw [hst.kind]
  split
  · exact ⟨.some rfl, hst.next⟩
  · exact ⟨.none, hst.report _⟩

theorem agree_enter : Agree Eq enter enter := by
  intro s t hst
  unfold enter
  rw [hst.depth]
  split
  · exact ⟨.some rfl, hst.withDepth _⟩
  · exact ⟨.none, hst.report _⟩

theorem Agree.restoring (h : Agree R p q) : Agree R (restoring p) (restoring q) := by
  intro s t hst
  obtain ⟨hresult, hstate⟩ := h hst
  unfold Parser.restoring
  rw [hst.depth]
  exact ⟨hresult, hstate.withDepth _⟩

/-- What goes on without a result of its own goes on alike behind it. -/
theorem Agree.bind_unit {u v : Parser Unit} {f : Unit → Parser γ} {g : Unit → Parser δ}
    (h : Agree Eq u v) (hf : Agree S (f ()) (g ())) : Agree S (u >>= f) (v >>= g) :=
  h.bind fun _ _ _ => hf

theorem Agree.leaving (h : Agree R p q) : Agree R (leaving p) (leaving q) := by
  intro s t hst
  obtain ⟨hresult, hstate⟩ := h hst
  exact ⟨hresult, hstate.leave⟩

theorem Agree.nested (h : Agree R p q) : Agree R (nested p) (nested q) :=
  agree_enter.bind_unit h.leaving

end Steps

/-! ### Operators -/

/-- The nodes of a level are the same without spans if their operands are. -/
def Level.Blind (level : Level) : Prop :=
  ∀ ⦃k join⦄, level k = some join → ∀ ⦃left left' right right' : Expr⦄,
    SameAs left left' → SameAs right right' → SameAs (join left right) (join left' right')

theorem blind_levelOf (r : Grammar.Rank) : Level.Blind (levelOf r) := by
  intro k join hk left left' right right' hleft hright
  obtain ⟨node, hop, rfl⟩ := levelOf_eq_some.1 hk
  rw [SameAs, hop.bare_node, hop.bare_node, hleft, hright]

section Operators
variable {p q : Parser Expr} {left left' : Expr}

theorem agree_chainFrom {level : Level} (hlevel : level.Blind) (h : Agree SameAs p q)
    (rounds : Nat) (hleft : SameAs left left') :
    Agree SameAs (chainFrom level p rounds left) (chainFrom level q rounds left') := by
  induction rounds generalizing left left' with
  | zero => exact agree_fail _
  | succ rounds ih =>
    rw [chainFrom, chainFrom]
    apply agree_kind_bind
    intro k
    cases hk : level k with
    | none => exact agree_pure hleft
    | some join =>
      apply agree_advance_bind
      intro _ _
      apply agree_enter.bind_unit
      apply h.bind
      intro right right' hright
      exact ih (hlevel hk hleft hright)

theorem Agree.chain {level : Level} (hlevel : level.Blind) (h : Agree SameAs p q) :
    Agree SameAs (chain level p) (chain level q) :=
  (h.bind fun _ _ hleft => agree_chainFrom hlevel h _ hleft).restoring

theorem sameAs_joinBinary {right right' : Expr} (op : BinaryOp) (hleft : SameAs left left')
    (hright : SameAs right right') :
    SameAs (joinBinary op left right) (joinBinary op left' right') := by
  rw [SameAs, joinBinary, joinBinary, Expr.bare, Expr.bare, hleft, hright]

theorem Agree.comparison (h : Agree SameAs p q) :
    Agree SameAs (comparison p) (comparison q) := by
  apply h.bind
  intro left left' hleft
  apply agree_kind_bind
  intro k
  cases comparison? k with
  | none => exact agree_pure hleft
  | some op =>
    apply agree_advance_bind
    intro _ _
    apply h.bind
    intro right right' hright
    apply agree_kind_bind
    intro k
    cases comparison? k with
    | none => exact agree_pure (sameAs_joinBinary op hleft hright)
    | some _ => exact agree_fail _

theorem Agree.prefixed (h : Agree SameAs p q) (rounds : Nat) :
    Agree SameAs (prefixed p rounds) (prefixed q rounds) := by
  induction rounds with
  | zero => exact agree_fail _
  | succ rounds ih =>
    rw [Parser.prefixed, Parser.prefixed]
    apply agree_kind_bind
    intro k
    cases prefixOp? k with
    | none => exact h
    | some op =>
      apply agree_advance_bind
      intro _ _
      apply ih.nested.bind
      intro e e' he
      exact agree_pure (by rw [SameAs, Expr.bare, Expr.bare, he])

theorem agree_fieldName :
    Agree (fun a b : Name => b.text = a.text) fieldName fieldName := by
  apply agree_kind_bind
  intro k
  cases fieldText? k with
  | none => exact agree_fail _
  | some text => exact agree_advance_bind fun _ _ => agree_pure rfl

theorem agree_accessFrom (h : Agree SameAs p q) (rounds : Nat) (hobject : SameAs left left') :
    Agree SameAs (accessFrom p rounds left) (accessFrom q rounds left') := by
  induction rounds generalizing left left' with
  | zero => exact agree_fail _
  | succ rounds ih =>
    rw [accessFrom, accessFrom]
    apply agree_kind_bind
    intro k
    split
    · apply agree_enter.bind_unit
      apply agree_advance_bind
      intro _ _
      apply agree_fieldName.bind
      intro field field' hfield
      exact ih (by rw [SameAs, Expr.bare, Expr.bare, hobject, hfield])
    · apply agree_enter.bind_unit
      apply agree_advance_bind
      intro _ _
      apply h.bind
      intro place place' hplace
      apply (agree_expect _).bind_unit
      apply agree_previous_bind
      intro _ _
      exact ih (by rw [SameAs, Expr.bare, Expr.bare, hobject, hplace])
    · exact agree_pure hobject

theorem Agree.access {primary primary' : Parser Expr} (h : Agree SameAs p q)
    (hprimary : Agree SameAs primary primary') :
    Agree SameAs (access p primary) (access q primary') :=
  (hprimary.bind fun _ _ hobject => agree_accessFrom h _ hobject).restoring

end Operators

/-! ### Lists and primary expressions -/

theorem agree_itemsFrom {α : Type} {R : α → α → Prop} {item item' : Parser α}
    (h : Agree R item item') (close : Symbol) (rounds : Nat) :
    Agree (List.Forall₂ R) (itemsFrom item close rounds) (itemsFrom item' close rounds) := by
  induction rounds with
  | zero => exact agree_kind_bind fun _ => agree_fail _
  | succ rounds ih =>
    rw [itemsFrom, itemsFrom]
    apply agree_kind_bind
    intro k
    split
    · exact agree_pure .nil
    · apply h.bind
      intro a b hab
      apply (agree_eat _).bind
      rintro comma _ rfl
      split
      · apply ih.bind
        intro as bs hrest
        exact agree_pure (.cons hab hrest)
      · exact agree_pure (.cons hab .nil)

/-- As many tokens are left on both sides. -/
theorem Agree.items {α : Type} {R : α → α → Prop} {item item' : Parser α}
    (h : Agree R item item') (close : Symbol) :
    Agree (List.Forall₂ R) (items item close) (items item' close) := by
  intro s t hst
  unfold Parser.items
  rw [hst.length_rest]
  exact agree_itemsFrom h close _ hst

theorem bareItems_of_forall₂ {items items' : List Expr} (h : List.Forall₂ SameAs items items') :
    Expr.bareItems items' = Expr.bareItems items := by
  induction h with
  | nil => rfl
  | cons he _ ih => exact bareItems_cons he ih

theorem bareEntries_of_forall₂ {entries entries' : List (String × Expr)}
    (h : List.Forall₂ SameEntry entries entries') :
    Expr.bareEntries entries' = Expr.bareEntries entries := by
  induction h with
  | nil => rfl
  | cons he _ ih => exact bareEntries_cons he ih

theorem agree_key : Agree Eq key key := by
  apply agree_kind_bind
  intro k
  cases keyText? k with
  | none => exact agree_fail _
  | some text => exact agree_advance_bind fun _ _ => agree_pure rfl

section Primary
variable {p q : Parser Expr}

theorem Agree.entry (h : Agree SameAs p q) : Agree SameEntry (entry p) (entry q) := by
  apply agree_key.bind
  rintro key _ rfl
  apply (agree_expect _).bind_unit
  apply h.bind
  intro e e' he
  exact agree_pure ⟨rfl, he⟩

/-- What stands in front of a closing symbol becomes a node around it. -/
theorem Agree.enclosed {α : Type} {R : α → α → Prop} {inner inner' : Parser α} {a b : Span}
    {node node' : Span → α → Expr} (h : Agree R inner inner') (close : Symbol)
    (hnode : ∀ span span' x x', R x x' → SameAs (node span x) (node' span' x')) :
    Agree SameAs
      (do let x ← inner
          expect close
          pure (node (a.merge (← previous)) x))
      (do let x ← inner'
          expect close
          pure (node' (b.merge (← previous)) x)) := by
  apply h.bind
  intro x x' hx
  apply (agree_expect _).bind_unit
  apply agree_previous_bind
  intro _ _
  exact agree_pure (hnode _ _ _ _ hx)

theorem rel_literal? (a b : Span) (k : Kind) :
    Option.Rel SameAs (literal? a k) (literal? b k) := by
  unfold literal?
  split <;> first | exact .some rfl | exact .none

theorem Agree.primary (h : Agree SameAs p q) : Agree SameAs (primary p) (primary q) := by
  apply agree_kind_bind
  intro k
  split
  · apply agree_advance_bind
    intro _ _
    apply (h.items _).enclosed
    intro span span' items items' hitems
    rw [SameAs, Expr.bare, Expr.bare, bareItems_of_forall₂ hitems]
  · apply agree_advance_bind
    intro _ _
    apply (h.entry.items _).enclosed
    intro span span' entries entries' hentries
    rw [SameAs, Expr.bare, Expr.bare, bareEntries_of_forall₂ hentries]
  · apply agree_advance_bind
    intro _ _
    apply h.enclosed
    intro span span' e e' he
    rw [SameAs, Expr.bare, Expr.bare, he]
  · next name =>
    apply agree_following.bind
    rintro following _ rfl
    split
    · apply agree_advance_bind
      intro place place'
      apply (agree_expect _).bind_unit
      have hnode (span span' : Span) (arguments arguments' : List Expr)
          (h : List.Forall₂ SameAs arguments arguments') :
          SameAs (.call span ⟨name, place⟩ arguments) (.call span' ⟨name, place'⟩ arguments') := by
        rw [SameAs, Expr.bare, Expr.bare, bareItems_of_forall₂ h]
      exact (h.items _).enclosed _ hnode
    · exact agree_advance_bind fun _ _ => agree_pure rfl
  · apply agree_here_bind
    intro a b
    have hliteral := rel_literal? a b k
    generalize literal? a k = e at hliteral
    generalize literal? b k = e' at hliteral
    cases hliteral with
    | none => exact agree_fail _
    | some he => exact agree_advance_bind fun _ _ => agree_pure he

theorem Agree.operators (h : Agree SameAs p q) :
    Agree SameAs (ofRank p .coalesce) (ofRank q .coalesce) := by
  have hfactor := (h.access h.primary).prefixed (nestingLimit + 1)
  have hsum := (hfactor.chain (blind_levelOf .product)).chain (blind_levelOf .sum)
  have hand := hsum.comparison.chain (blind_levelOf .and)
  exact (hand.chain (blind_levelOf .or)).chain (blind_levelOf .coalesce)

theorem Agree.ternary (h : Agree SameAs p q) :
    Agree SameAs (ofRank p .conditional) (ofRank q .conditional) := by
  apply h.operators.bind
  intro condition condition' hcondition
  apply (agree_eat _).bind
  rintro asked _ rfl
  split
  · apply h.bind
    intro yes yes' hyes
    apply (agree_expect _).bind_unit
    apply h.bind
    intro no no' hno
    exact agree_pure (by rw [SameAs, Expr.bare, Expr.bare, hcondition, hyes, hno])
  · exact agree_pure hcondition

end Primary

theorem agree_expressionWithin (levels : Nat) :
    Agree SameAs (expressionWithin levels) (expressionWithin levels) := by
  induction levels with
  | zero => exact agree_fail _
  | succ levels ih =>
    rw [expressionWithin_succ]
    exact ih.ternary.nested

end Parser

/-- Tokens of the same kinds give the same expression, spans aside, and the same faults, places
aside. -/
theorem Parsing.ofTokens_congr {tokens tokens' : List Token}
    (h : tokens.map Token.kind = tokens'.map Token.kind) :
    Option.Rel Parser.SameAs (ofTokens tokens).expr (ofTokens tokens').expr ∧
      (ofTokens tokens).faults.map LocatedFault.fault =
        (ofTokens tokens').faults.map LocatedFault.fault := by
  have hstart := ParserState.alike_start h
  obtain ⟨hresult, hstate⟩ := Parser.agree_expressionWithin (nestingLimit + 1) hstart
  unfold ofTokens
  simp only [hstart.kind, Parser.expression]
  split
  · exact ⟨.none, (hstart.report _).faults⟩
  generalize Parser.expressionWithin _ (Parser.start tokens) = x at hresult hstate
  generalize Parser.expressionWithin _ (Parser.start tokens') = y at hresult hstate
  obtain ⟨x, s⟩ := x
  obtain ⟨y, t⟩ := y
  cases hresult with
  | none => exact ⟨.none, hstate.faults⟩
  | some he =>
    simp only [show s.kind = t.kind from hstate.kind]
    split
    · exact ⟨.some he, hstate.faults⟩
    · exact ⟨.some he, (hstate.report _).faults⟩

end JsonTemplate
