import JsonTemplate.Proofs.Grammar.Faults
import JsonTemplate.Proofs.Grammar.Progress
import JsonTemplate.Proofs.Grammar.Unbounded
import JsonTemplate.Proofs.Reports
import Mathlib.Order.Filter.AtTopBot.Basic

/-! The parser ends on every list of tokens, and reports one fault at most. At the end of a list
without an end token it goes on seeing the last token, so no loop has the tokens left as its
measure there. What bounds the loops over operators and the recursion is the nesting level, which
all of them take up. What bounds lists is that no item starts with a comma. -/

namespace JsonTemplate

open Token (Kind)

namespace Parser

variable {α β : Type}

/-! ### No item starts with a comma -/

/-- The parser gives no result where a comma comes next. -/
def RefusesComma (p : Parser α) : Prop :=
  ∀ s, s.kind = .symbol .comma → ∃ t, p s = (none, t)

theorem RefusesComma.bind {p : Parser α} (h : RefusesComma p) (f : α → Parser β) :
    RefusesComma (p >>= f) := by
  intro s hs
  obtain ⟨t, ht⟩ := h s hs
  exact ⟨t, bind_of_none ht⟩

theorem RefusesComma.restoring {p : Parser α} (h : RefusesComma p) :
    RefusesComma (restoring p) := by
  intro s hs
  obtain ⟨t, ht⟩ := h s hs
  exact ⟨_, restoring_eq.2 ⟨t, ht, rfl⟩⟩

theorem RefusesComma.nested {p : Parser α} (h : RefusesComma p) : RefusesComma (nested p) := by
  intro s hs
  by_cases hd : s.depth < nestingLimit
  · obtain ⟨t, ht⟩ := h { s with depth := s.depth + 1 } hs
    rw [nested_of_lt p hd]
    exact ⟨_, leaving_eq.2 ⟨t, ht, rfl⟩⟩
  · exact ⟨_, nested_of_not_lt p hd⟩

theorem refusesComma_key : RefusesComma key := by
  intro s hs
  rw [key, kind_bind, hs]
  exact ⟨_, rfl⟩

theorem refusesComma_primary (p : Parser Expr) : RefusesComma (primary p) := by
  intro s hs
  rw [primary, kind_bind, hs]
  exact ⟨_, rfl⟩

theorem refusesComma_ternary (p : Parser Expr) : RefusesComma (ternary p (primary p)) := by
  have hfactor : RefusesComma (factor p) := by
    intro s hs
    rw [factor, prefixed_none (by rw [hs]; rfl)]
    exact ((refusesComma_primary p).bind _).restoring s hs
  have hsum : RefusesComma (sum p) := (((hfactor.bind _).restoring).bind _).restoring
  have hconjunction : RefusesComma (conjunction p) := ((hsum.bind _).bind _).restoring
  exact (((hconjunction.bind _).restoring.bind _).restoring).bind _

theorem refusesComma_expressionWithin (levels : Nat) : RefusesComma (expressionWithin levels) := by
  cases levels with
  | zero => exact fun s _ => ⟨_, rfl⟩
  | succ levels => exact (refusesComma_ternary _).nested

end Parser

namespace Procedures

open Filter (atTop)
open Grammar (Rank)
open OpenParser (restoring nested listOf)
open JsonTemplate.Parser (bind_of_some bind_of_none Proceeds RefusesComma closed_proceeds levelOf)

variable {α β : Type} {m n rounds : Nat} {s : ParserState}

/-! ### Enough calls -/

/-- Some number of open calls is enough for the parser, and then it gives this. -/
def Settles (q : Nat → OpenParser α) (s : ParserState) (found : Option α × ParserState) : Prop :=
  ∀ᶠ calls in atTop, q calls s = some found

theorem settles_of_eq {q : OpenParser α} {found : Option α × ParserState} (h : q s = some found) :
    Settles (fun _ => q) s found := .of_forall fun _ => h

/-- One call more does not matter. -/
theorem Settles.round {q : Nat → OpenParser α} {found : Option α × ParserState}
    (h : Settles (fun calls => q (calls + 1)) s found) : Settles q s found := by
  rw [Settles, ← Filter.map_add_atTop_eq_nat 1]
  exact h

theorem bind_apply (q : OpenParser α) (g : α → OpenParser β) (s : ParserState) :
    (q >>= g) s = (q s).bind fun found => match found with
      | (some a, t) => g a t
      | (none, t) => some (none, t) := by
  refine congrArg (Option.bind (q s)) (funext fun found => ?_)
  obtain ⟨_ | a, t⟩ := found <;> rfl

theorem Settles.bind {q : Nat → OpenParser α} {p : Parser α} {g : Nat → α → OpenParser β}
    {f : α → Parser β} (hq : Settles q s (p s))
    (h : ∀ a t, p s = (some a, t) → Settles (fun calls => g calls a) t (f a t)) :
    Settles (fun calls => q calls >>= g calls) s ((p >>= f) s) := by
  cases hp : p s with
  | mk found t =>
    rw [hp] at hq
    cases found with
    | none =>
      rw [bind_of_none hp]
      refine hq.mono fun calls hcalls => ?_
      change (q calls >>= g calls) s = _
      rw [bind_apply, hcalls, Option.bind_some]
    | some a =>
      rw [bind_of_some hp]
      refine (hq.and (h a t hp)).mono fun calls hcalls => ?_
      change (q calls >>= g calls) s = _
      rw [bind_apply, hcalls.1, Option.bind_some]
      exact hcalls.2

/-- Where the level is not below the given one, both parsers do the same. -/
structure SameFrom (m : Nat) (q : Nat → OpenParser α) (p : Parser α) : Prop where
  proceeds : Proceeds p
  run (s : ParserState) : m ≤ s.depth → s.depth ≤ nestingLimit → Settles q s (p s)

theorem SameFrom.mono {q : Nat → OpenParser α} {p : Parser α} (h : SameFrom m q p)
    (hle : m ≤ n) : SameFrom n q p :=
  ⟨h.proceeds, fun s hm hs => h.run s (Nat.le_trans hle hm) hs⟩

theorem SameFrom.round {q : Nat → OpenParser α} {p : Parser α}
    (h : SameFrom m (fun calls => q (calls + 1)) p) : SameFrom m q p :=
  ⟨h.proceeds, fun s hm hs => (h.run s hm hs).round⟩

/-- No level is above the limit. -/
theorem sameFrom_tooDeep (q : Nat → OpenParser α) (h : nestingLimit < m) :
    SameFrom m q (Parser.fail .tooDeep) :=
  ⟨closed_proceeds.fail rfl, fun _ hm hs => absurd (Nat.le_trans hm hs) (Nat.not_le_of_lt h)⟩

theorem sameFrom_pure (m : Nat) (a : α) : SameFrom m (fun _ => pure a) (pure a) :=
  ⟨closed_proceeds.pure a, fun _ _ _ => settles_of_eq rfl⟩

theorem sameFrom_lift (m : Nat) {p : Parser α} (hp : Proceeds p) :
    SameFrom m (fun _ => liftM p) p := ⟨hp, fun _ _ _ => settles_of_eq rfl⟩

theorem SameFrom.bind {q : Nat → OpenParser α} {p : Parser α} {g : Nat → α → OpenParser β}
    {f : α → Parser β} (h : SameFrom m q p)
    (hf : ∀ a, SameFrom m (fun calls => g calls a) (f a)) :
    SameFrom m (fun calls => q calls >>= g calls) (p >>= f) := by
  refine ⟨closed_proceeds.bind h.proceeds fun a => (hf a).proceeds, fun s hm hs => ?_⟩
  refine (h.run s hm hs).bind fun a t hrun => ?_
  have hleads := h.proceeds.leads hrun
  exact (hf a).run t (Nat.le_trans hm hleads.depth) (hleads.limit hs)

/-- A step that both parsers take. -/
theorem SameFrom.step {p : Parser α} {g : Nat → α → OpenParser β} {f : α → Parser β}
    (hp : Proceeds p) (hf : ∀ a, SameFrom m (fun calls => g calls a) (f a)) :
    SameFrom m (fun calls => liftM p >>= g calls) (p >>= f) :=
  (sameFrom_lift m hp).bind hf

theorem SameFrom.restoring {q : Nat → OpenParser α} {p : Parser α} (h : SameFrom m q p) :
    SameFrom m (fun calls => restoring (q calls)) (Parser.restoring p) := by
  refine ⟨closed_proceeds.restoring h.proceeds, fun s hm hs => ?_⟩
  exact (h.run s hm hs).mono fun calls hcalls => congrArg (Option.map _) hcalls

/-- One level deeper a parser starts from a level above, and that level is given back. -/
theorem SameFrom.nested {q : Nat → OpenParser α} {p : Parser α} (h : SameFrom (m + 1) q p) :
    SameFrom m (fun calls => nested (q calls)) (Parser.nested p) := by
  refine ⟨closed_proceeds.nested h.proceeds, fun s hm hs => ?_⟩
  refine (settles_of_eq (q := liftM Parser.enter) rfl).bind fun u t hrun => ?_
  obtain ⟨hd, rfl⟩ := Parser.enter_eq_some.1 hrun
  have hrest := h.run { s with depth := s.depth + 1 } (Nat.succ_le_succ hm) hd
  exact hrest.mono fun calls hcalls => congrArg (Option.map _) hcalls

/-- What comes behind one more level starts from a level above. -/
theorem SameFrom.entered {q : Nat → OpenParser α} {p : Parser α} (h : SameFrom (m + 1) q p) :
    SameFrom m (fun calls => do Parser.enter; q calls) (do Parser.enter; p) := by
  refine ⟨closed_proceeds.bind closed_proceeds.enter fun _ => h.proceeds, fun s hm hs => ?_⟩
  refine (settles_of_eq (q := liftM Parser.enter) rfl).bind fun u t hrun => ?_
  obtain ⟨hd, rfl⟩ := Parser.enter_eq_some.1 hrun
  exact h.run _ (Nat.succ_le_succ hm) hd

/-! ### Operators -/

section Operators
variable {p : Parser Expr} {r : Rank}

theorem sameFrom_chainFrom (h : SameFrom m (fun calls => (within calls).operand r) p)
    (hrounds : nestingLimit < rounds + m) (left : Expr) :
    SameFrom m (fun calls => (within calls).chainFrom r left)
      (Parser.chainFrom (levelOf r) p rounds left) := by
  induction rounds generalizing m left with
  | zero => exact sameFrom_tooDeep _ (by omega)
  | succ rounds ih =>
    rw [Parser.chainFrom]
    refine .round <| .step closed_proceeds.kind fun k => ?_
    cases levelOf r k with
    | none => exact sameFrom_pure m left
    | some join =>
      have hright := h.mono (Nat.le_succ m)
      exact .step closed_proceeds.advance fun _ => .entered <|
        hright.bind fun right => ih hright (by omega) (join left right)

theorem sameFrom_chain (h : SameFrom m (fun calls => (within calls).operand r) p) :
    SameFrom m (fun calls => (within calls).chain r) (Parser.chain (levelOf r) p) :=
  .round (h.bind fun left => sameFrom_chainFrom h (by omega) left).restoring

theorem sameFrom_comparison (h : SameFrom m (fun calls => (within calls).chain .sum) p) :
    SameFrom m (fun calls => (within calls).comparison) (Parser.comparison p) := by
  refine h.bind fun left => .step closed_proceeds.kind fun k => ?_
  cases Parser.comparison? k with
  | none => exact sameFrom_pure m left
  | some op =>
    refine .step closed_proceeds.advance fun _ => h.bind fun right =>
      .step closed_proceeds.kind fun k => ?_
    cases Parser.comparison? k with
    | none => exact sameFrom_pure m _
    | some _ => exact sameFrom_lift m (closed_proceeds.fail rfl)

theorem sameFrom_prefixed (h : SameFrom m (fun calls => (within calls).access) p)
    (hrounds : nestingLimit < rounds + m) :
    SameFrom m (fun calls => (within calls).prefixed) (Parser.prefixed p rounds) := by
  induction rounds generalizing m with
  | zero => exact sameFrom_tooDeep _ (by omega)
  | succ rounds ih =>
    rw [Parser.prefixed]
    refine .round <| .step closed_proceeds.kind fun k => ?_
    cases Parser.prefixOp? k with
    | none => exact h
    | some op =>
      have hinner := ih (h.mono (Nat.le_succ m)) (by omega)
      exact .step closed_proceeds.advance fun start =>
        hinner.nested.bind fun inner => sameFrom_pure m _

end Operators

/-! ### Lists -/

/-- As many rounds are enough for a list. Every round but the last two consumes a comma, or the
last token of all is a comma. It stays the next token then, and no item starts with it. -/
def Suffices (rounds : Nat) (s : ParserState) : Prop :=
  s.rest.length + 2 ≤ rounds ∨ 0 < rounds ∧ s.kind = .symbol .comma

/-- A comma behind an item leaves enough rounds. -/
theorem suffices_next {t : ParserState} (h : s.rest.length + 2 ≤ rounds + 1)
    (hlength : t.rest.length ≤ s.rest.length) (hk : t.kind = .symbol .comma) :
    Suffices rounds t.next := by
  cases hrest : t.rest with
  | nil =>
    rw [ParserState.next_eq_self hrest]
    exact .inr ⟨by omega, hk⟩
  | cons token rest =>
    refine .inl ?_
    rw [ParserState.length_rest_next]
    rw [hrest, List.length_cons] at hlength ⊢
    omega

section Items
variable {openItem : Nat → OpenParser α} {item : Parser α} {openItems : Nat → OpenParser (List α)}
  {close : Symbol}
  (hitems : ∀ calls, openItems (calls + 1) = listOf close (openItem calls) (openItems calls))
  (h : SameFrom m openItem item) (hcomma : RefusesComma item)
include hitems h hcomma

theorem settles_itemsFrom (hm : m ≤ s.depth) (hs : s.depth ≤ nestingLimit)
    (hrounds : Suffices rounds s) :
    Settles openItems s (Parser.itemsFrom item close rounds s) := by
  induction rounds generalizing s with
  | zero => rcases hrounds with hlength | ⟨hpos, -⟩ <;> omega
  | succ rounds ih =>
    refine .round ?_
    simp only [hitems]
    rw [Parser.itemsFrom]
    refine (settles_of_eq (q := liftM Parser.kind) rfl).bind fun k t hkind => ?_
    cases hkind
    split
    · exact settles_of_eq rfl
    refine (h.run s hm hs).bind fun first t hfirst =>
      (settles_of_eq (q := liftM (Parser.eat .comma)) rfl).bind fun more u hmore => ?_
    have hleads := h.proceeds.leads hfirst
    cases more with
    | false => exact settles_of_eq rfl
    | true =>
      obtain ⟨hk, rfl⟩ := Parser.eat_eq_true.1 hmore
      have hnext := hleads.trans (ParserState.leads_next t)
      rcases hrounds with hlength | ⟨-, hstuck⟩
      · exact (ih (Nat.le_trans hm hnext.depth) (hnext.limit hs)
          (suffices_next hlength hleads.length hk)).bind fun others v _ => settles_of_eq rfl
      · obtain ⟨v, hv⟩ := hcomma s hstuck
        rw [hfirst] at hv
        cases hv

theorem sameFrom_items : SameFrom m openItems (Parser.items item close) :=
  ⟨closed_proceeds.guarded.items h.proceeds close,
    fun _ hm hs => settles_itemsFrom hitems h hcomma hm hs (.inl (Nat.le_refl _))⟩

end Items

/-! ### Expressions -/

section Expressions
variable {p : Parser Expr} (h : SameFrom m (fun calls => (within calls).expression) p)
include h

theorem sameFrom_accessFrom (hrounds : nestingLimit < rounds + m) (object : Expr) :
    SameFrom m (fun calls => (within calls).accessFrom object)
      (Parser.accessFrom p rounds object) := by
  induction rounds generalizing m object with
  | zero => exact sameFrom_tooDeep _ (by omega)
  | succ rounds ih =>
    have hindex := h.mono (Nat.le_succ m)
    rw [Parser.accessFrom]
    refine .round <| .step closed_proceeds.kind fun k => ?_
    cases k with
    | symbol symbol =>
      cases symbol with
      | dot =>
        exact .entered <| .step closed_proceeds.advance fun _ =>
          .step closed_proceeds.fieldName fun field => ih hindex (by omega) _
      | leftBracket =>
        exact .entered <| .step closed_proceeds.advance fun _ => hindex.bind fun index =>
          .step (closed_proceeds.expect _) fun _ => .step closed_proceeds.previous fun _ =>
            ih hindex (by omega) _
      | _ => exact sameFrom_pure m object
    | _ => exact sameFrom_pure m object

variable (hcomma : RefusesComma p)
include hcomma

theorem sameFrom_elements (close : Symbol) :
    SameFrom m (fun calls => (within calls).items close) (Parser.items p close) :=
  sameFrom_items (fun _ => rfl) h hcomma

omit hcomma in
theorem sameFrom_entries :
    SameFrom m (fun calls => (within calls).entries)
      (Parser.items (Parser.entry p) .rightBrace) := by
  have hentry : SameFrom m (fun calls => (within calls).entry) (Parser.entry p) :=
    .step closed_proceeds.key fun name => .step (closed_proceeds.expect _) fun _ =>
      h.bind fun value => sameFrom_pure m _
  exact sameFrom_items (fun _ => rfl) hentry (Parser.refusesComma_key.bind _)

omit h hcomma in
/-- What is no bracket and no name is a literal, or it is reported. -/
theorem sameFrom_literal (m : Nat) (k : Kind) :
    SameFrom m (fun _ => literal k) (do
      match Parser.literal? (← Parser.here) k with
      | some e =>
        let _ ← Parser.advance
        pure e
      | none => Parser.fail (.expectedExpression k)) := by
  refine .step closed_proceeds.here fun span => ?_
  cases Parser.literal? span k with
  | some e => exact .step closed_proceeds.advance fun _ => sameFrom_pure m e
  | none => exact sameFrom_lift m (closed_proceeds.fail rfl)

theorem sameFrom_primary :
    SameFrom m (fun calls => (within calls).primary) (Parser.primary p) := by
  refine .step closed_proceeds.kind fun k => ?_
  have hliteral := sameFrom_literal m k
  cases k with
  | symbol symbol =>
    cases symbol with
    | leftBracket =>
      exact .step closed_proceeds.advance fun start =>
        (sameFrom_elements h hcomma _).bind fun elements => .step (closed_proceeds.expect _)
          fun _ => .step closed_proceeds.previous fun _ => sameFrom_pure m _
    | leftBrace =>
      exact .step closed_proceeds.advance fun start => (sameFrom_entries h).bind fun entries =>
        .step (closed_proceeds.expect _) fun _ => .step closed_proceeds.previous fun _ =>
          sameFrom_pure m _
    | leftParen =>
      exact .step closed_proceeds.advance fun start => h.bind fun inner =>
        .step (closed_proceeds.expect _) fun _ => .step closed_proceeds.previous fun _ =>
          sameFrom_pure m _
    | _ => exact hliteral
  | identifier name =>
    refine .step closed_proceeds.following fun k => ?_
    dsimp only
    split
    · exact .step closed_proceeds.advance fun span => .step (closed_proceeds.expect _) fun _ =>
        (sameFrom_elements h hcomma _).bind fun arguments =>
          .step (closed_proceeds.expect _) fun _ => .step closed_proceeds.previous fun _ =>
            sameFrom_pure m _
    · exact .step closed_proceeds.advance fun _ => sameFrom_pure m _
  | _ => exact hliteral

theorem sameFrom_access :
    SameFrom m (fun calls => (within calls).access) (Parser.access p (Parser.primary p)) :=
  ((sameFrom_primary h hcomma).bind fun object => sameFrom_accessFrom h (by omega) object).restoring

theorem sameFrom_ternary :
    SameFrom m (fun calls => (within calls).ternary) (Parser.ternary p (Parser.primary p)) := by
  have hfactor : SameFrom m (fun calls => (within calls).operand .product) (Parser.factor p) :=
    sameFrom_prefixed (sameFrom_access h hcomma) (by omega)
  have hproduct : SameFrom m (fun calls => (within calls).operand .sum) (Parser.product p) :=
    sameFrom_chain hfactor
  have hsum : SameFrom m (fun calls => (within calls).chain .sum) (Parser.sum p) :=
    sameFrom_chain hproduct
  have hconjunction :
      SameFrom m (fun calls => (within calls).operand .or) (Parser.conjunction p) :=
    sameFrom_chain (r := .and) (sameFrom_comparison hsum)
  have hdisjunction :
      SameFrom m (fun calls => (within calls).operand .coalesce) (Parser.disjunction p) :=
    sameFrom_chain hconjunction
  refine (sameFrom_chain hdisjunction).bind fun condition =>
    .step (closed_proceeds.eat _) fun asked => ?_
  split
  · exact h.bind fun yes => .step (closed_proceeds.expect _) fun _ => h.bind fun no =>
      sameFrom_pure m _
  · exact sameFrom_pure m condition

end Expressions

theorem sameFrom_expressionWithin {levels : Nat} (hlevels : nestingLimit < levels + m) :
    SameFrom m (fun calls => (within calls).expression) (Parser.expressionWithin levels) := by
  induction levels generalizing m with
  | zero => exact sameFrom_tooDeep _ (by omega)
  | succ levels ih =>
    exact .round (sameFrom_ternary (ih (by omega))
      (Parser.refusesComma_expressionWithin levels)).nested

/-- The bounds on rounds and levels are never met: without them parsing ends all the same. -/
theorem settles_expression (tokens : List Token) :
    Settles (fun calls => (within calls).expression) (Parser.start tokens)
      (Parser.expression (Parser.start tokens)) :=
  (sameFrom_expressionWithin (Nat.lt_succ_self _)).run _ (Nat.zero_le _) (Nat.zero_le _)

end Procedures

theorem Fault.isTrailing_iff {fault : Fault} : fault.isTrailing ↔ fault.code = .trailingInput := by
  cases fault <;> simp only [isTrailing, code] <;> decide

namespace Parsing

theorem exists_openly_eq (tokens : List Token) :
    ∃ enough, ∀ calls, enough ≤ calls → openly calls tokens = some (ofTokens tokens) := by
  refine Filter.eventually_atTop.1 ((Procedures.settles_expression tokens).mono fun calls h => ?_)
  unfold openly ofTokens
  simp only [h]
  by_cases hempty : (Parser.start tokens).kind = .eof
  · simp only [if_pos hempty]
  · simp only [if_neg hempty]
    cases Parser.expression (Parser.start tokens) with
    | mk found s =>
      cases found with
      | none => rfl
      | some e => exact (apply_ite some _ _ _).symm

/-- Parsing ends on every list of tokens, without any bound on loops and recursion, and reports
one fault at most: one within the expression if there is none, or one behind it. -/
theorem openly_reports (tokens : List Token) (source : String) :
    (∃ enough, ∀ calls, enough ≤ calls → openly calls tokens = some (ofTokens tokens)) ∧
      let report := Report.ofFaults source (ofTokens tokens).faults
      let expr := (ofTokens tokens).expr
      report.total ≤ 1 ∧
      (expr = none ↔ ∃ d, report = ⟨[d], 1⟩ ∧ d.code ≠ .trailingInput) ∧
      (expr.isSome ∧ report.total = 1 ↔ ∃ d, report = ⟨[d], 1⟩ ∧ d.code = .trailingInput) ∧
      ((¬∃ d, report = ⟨[d], 1⟩) → expr.isSome ∧ report = .empty) := by
  refine ⟨exists_openly_eq tokens, ?_⟩
  have hsingle (f : LocatedFault) : Report.ofFaults source [f] = ⟨[f.diagnostic source], 1⟩ := rfl
  have hcode (f : LocatedFault) : (f.diagnostic source).code = f.fault.code := rfl
  rcases ofTokens_cases tokens with ⟨f, hf, h⟩ | ⟨e, f, hf, h⟩ | ⟨e, h⟩
  · have hother : f.fault.code ≠ .trailingInput := fun htrailing => by
      rw [Fault.isTrailing_iff.2 htrailing] at hf
      cases hf
    simpa [h, hsingle, hcode] using hother
  · have htrailing := Fault.isTrailing_iff.1 hf
    simpa [h, hsingle, hcode] using htrailing
  · have hnone : Report.ofFaults source [] = .empty := rfl
    simp [h, hnone, Report.empty]

end Parsing

end JsonTemplate
