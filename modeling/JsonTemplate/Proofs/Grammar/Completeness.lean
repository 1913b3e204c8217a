import JsonTemplate.Proofs.Grammar.Reading

/-! What the grammar derives the parser reads, unless the nesting gets too deep. A level of
nesting is never taken up without a token: a phrase that fits into the levels left, counted in
tokens, is read. A phrase ends where the next token cannot go on with it. -/

namespace JsonTemplate.Parser

open Token (Kind)
open Grammar

variable {α β : Type} {s s' : ParserState} {k : Kind} {ts us : List Kind} {d : Nat}
  {fs : List LocatedFault}

/-! ### Where a phrase ends -/

/-- How loose the phrases are that a token goes on with. Nothing goes on with the other tokens. -/
def reach : Kind → Nat
  | .symbol .leftParen => Rank.primary.looseness
  | .symbol .dot | .symbol .leftBracket => Rank.access.looseness
  | .symbol .star | .symbol .slash | .symbol .percent => Rank.product.looseness
  | .symbol .plus | .symbol .minus => Rank.sum.looseness
  | .symbol .equal | .symbol .notEqual | .symbol .less | .symbol .greater | .symbol .lessEqual
  | .symbol .greaterEqual | .keyword .isIn => Rank.comparison.looseness
  | .symbol .and | .keyword .and => Rank.and.looseness
  | .symbol .or | .keyword .or => Rank.or.looseness
  | .symbol .coalesce => Rank.coalesce.looseness
  | .symbol .question => Rank.conditional.looseness
  | _ => Rank.conditional.looseness + 1

/-- No phrase of the rank goes on with the token. -/
def Stops (r : Rank) (k : Kind) : Prop := r.looseness < reach k

instance (r : Rank) (k : Kind) : Decidable (Stops r k) := inferInstanceAs (Decidable (_ < _))

theorem Stops.tighter {r operand : Rank} (h : Stops r k) (hr : Tighter r operand) :
    Stops operand k :=
  Nat.lt_trans hr.looseness h

theorem reach_chainOperator {r : Rank} {node : Span → Expr → Expr → Expr}
    (h : ChainOperator r k node) : reach k = r.looseness := by
  cases h <;> rfl

theorem Stops.levelOf {r : Rank} (h : Stops r k) : levelOf r k = none := by
  cases hl : Parser.levelOf r k with
  | none => rfl
  | some join =>
    obtain ⟨node, hop, -⟩ := levelOf_eq_some.1 hl
    rw [Stops, reach_chainOperator hop] at h
    exact absurd h (Nat.lt_irrefl _)

theorem Stops.comparison? (h : Stops .comparison k) : comparison? k = none := by
  cases hc : Parser.comparison? k with
  | none => rfl
  | some op =>
    have hop := comparison?_eq_some.1 hc
    cases hop <;> exact absurd h (Nat.lt_irrefl _)

/-! ### How a parser ends -/

/-- The tokens left, the depth and the faults of a state. -/
structure At (s : ParserState) (ts : List Kind) (d : Nat) (fs : List LocatedFault) : Prop where
  kinds : s.kinds = ts
  depth : s.depth = d
  faults : s.faults = fs

theorem At.kind (h : At s (k :: ts) d fs) : s.kind = k := ParserState.kind_of_kinds h.kinds

theorem At.next (h : At s (k :: ts) d fs) : At s.next ts d fs :=
  ⟨ParserState.kinds_next h.kinds, by rw [s.depth_next, h.depth],
    by rw [s.faults_next, h.faults]⟩

/-- The parser reads up to the tokens `us`, or gives up because the nesting is too deep, which
it does only if there is little room. -/
inductive Ends (us : List Kind) (d : Nat) (fs : List LocatedFault) (same : α → Prop)
    (tight : Prop) : Option α × ParserState → Prop where
  | read {a : α} {s : ParserState} : same a → At s us d fs →
    Ends us d fs same tight (some a, s)
  | tooDeep {s : ParserState} {span : Span} :
    tight → s.faults = fs ++ [⟨.tooDeep, span⟩] → Ends us d fs same tight (none, s)

section Ends
variable {same : α → Prop} {same' : β → Prop} {tight tight' : Prop} {d' : Nat}

/-- What holds however a parser ends holds of the whole if the rest keeps it. -/
theorem Ends.elim {p : Parser α} {f : α → Parser β} {goal : Option β × ParserState → Prop}
    (h : Ends us d fs same tight (p s))
    (hread : ∀ a t, same a → At t us d fs → goal (f a t))
    (hdeep : ∀ t span, tight → t.faults = fs ++ [⟨.tooDeep, span⟩] → goal (none, t)) :
    goal ((p >>= f) s) := by
  generalize hr : p s = result at h
  cases h with
  | read ha hs => rw [bind_of_some hr]; exact hread _ _ ha hs
  | tooDeep ht hf => rw [bind_of_none hr]; exact hdeep _ _ ht hf

theorem Ends.bind {p : Parser α} {f : α → Parser β} (h : Ends us d fs same tight (p s))
    (ht : tight → tight')
    (hf : ∀ a t, same a → At t us d fs → Ends ts d' fs same' tight' (f a t)) :
    Ends ts d' fs same' tight' ((p >>= f) s) :=
  h.elim hf fun _ _ htight hfaults => .tooDeep (ht htight) hfaults

theorem Ends.imp {r : Option α × ParserState} {good : α → Prop} (h : Ends us d fs same tight r)
    (ht : tight → tight') (ha : ∀ a, same a → good a) : Ends us d fs good tight' r := by
  cases h with
  | read hsame hs => exact .read (ha _ hsame) hs
  | tooDeep htight hfaults => exact .tooDeep (ht htight) hfaults

theorem ends_expect {symbol : Symbol} (hs : At s (.symbol symbol :: us) d fs) :
    Ends us d fs (fun _ => True) False (expect symbol s) := by
  rw [expect_eq_some.2 ⟨hs.kind, rfl⟩]
  exact .read trivial hs.next

/-- Taking up a level succeeds as long as there is one. -/
theorem ends_enter (hs : At s us d fs) (hd : d ≤ nestingLimit) :
    Ends us (d + 1) fs (fun _ => d < nestingLimit) (d = nestingLimit) (enter s) := by
  obtain ⟨hk, rfl, rfl⟩ := hs
  rcases Nat.lt_or_eq_of_le hd with hlt | heq
  · rw [enter_eq_some.2 ⟨hlt, rfl⟩]
    exact .read hlt ⟨hk, rfl, rfl⟩
  · have hfail : enter s = (none, s.report .tooDeep) := if_neg (by omega)
    rw [hfail]
    exact .tooDeep heq rfl

/-- A change of the level behind a parser changes no more than the level. -/
theorem Ends.changed {r : Option α × ParserState} (h : Ends ts d' fs same tight r)
    (level : Nat → Nat) :
    Ends ts (level d') fs same tight (r.1, { r.2 with depth := level r.2.depth }) := by
  cases h with
  | read ha ht => exact .read ha ⟨ht.kinds, congrArg level ht.depth, ht.faults⟩
  | tooDeep htight hfaults => exact .tooDeep htight hfaults

theorem ends_restoring {p : Parser α} (hs : At s us d fs) (h : Ends ts d' fs same tight (p s)) :
    Ends ts d fs same tight (restoring p s) := by
  obtain ⟨hk, rfl, rfl⟩ := hs
  exact h.changed fun _ => s.depth

theorem ends_leaving {p : Parser α} (h : Ends ts (d + 1) fs same tight (p s)) :
    Ends ts d fs same tight (leaving p s) := h.changed (· - 1)

theorem ends_nested {p : Parser α} (hs : At s us d fs) (hd : d ≤ nestingLimit)
    (ht : d = nestingLimit → tight)
    (hp : ∀ t, d < nestingLimit → At t us (d + 1) fs → Ends ts (d + 1) fs same tight (p t)) :
    Ends ts d fs same tight (nested p s) := by
  apply (ends_enter hs hd).bind ht
  intro _ t hlt hat
  exact ends_leaving (hp t hlt hat)

end Ends

/-! ### Phrases read by the parser of their rank -/

/-- The same expression, spans aside. -/
def SameAs (e e' : Expr) : Prop := e'.bare = e.bare

/-- The parser of the rank reads the phrase, if it has levels for what is inside. -/
def Direct (r : Rank) (ts : List Kind) (e : Expr) : Prop :=
  ∀ ⦃levels : Nat⦄ ⦃s : ParserState⦄ ⦃k : Kind⦄ ⦃us : List Kind⦄ ⦃d : Nat⦄
    ⦃fs : List LocatedFault⦄, At s (ts ++ k :: us) d fs → Stops r k → d ≤ nestingLimit →
    nestingLimit < levels + d →
    Ends (k :: us) d fs (SameAs e) (nestingLimit + 1 < d + ts.length)
      (ofRank (expressionWithin levels) r s)

/-- A parser with levels for what is inside reads the tokens, in front of a token that no
expression goes on with. -/
def Reaches (p : Nat → Parser α) (same : α → Prop) (ts : List Kind) : Prop :=
  ∀ ⦃levels : Nat⦄ ⦃s : ParserState⦄ ⦃k : Kind⦄ ⦃us : List Kind⦄ ⦃d : Nat⦄
    ⦃fs : List LocatedFault⦄, At s (ts ++ k :: us) d fs → Stops .conditional k →
    d ≤ nestingLimit → nestingLimit < levels + d →
    Ends (k :: us) d fs same (nestingLimit < d + ts.length) (p levels s)

theorem Direct.reaches {e : Expr} (h : Direct .conditional ts e) (hpos : 0 < ts.length) :
    Reaches expressionWithin (SameAs e) ts := by
  intro levels s k us d fs hs hk hd hl
  obtain ⟨levels, rfl⟩ : ∃ n, levels = n + 1 := Nat.exists_eq_add_one.2 (by omega)
  rw [expressionWithin_succ]
  apply ends_nested hs hd (by omega)
  intro t hlt ht
  exact (h ht hk hlt (by omega)).imp (by omega) fun _ ha => ha

/-! ### Operands and accesses one after the other -/

/-- The rank of the first operand, for the ranks whose phrases start with one of their own. -/
def operand? : Rank → Option Rank
  | .coalesce => some .or
  | .or => some .and
  | .and => some .comparison
  | .sum => some .product
  | .product => some .unary
  | .access => some .primary
  | _ => none

/-- What goes on behind the first operand. -/
def continuation (expression : Parser Expr) (r operand : Rank) : Nat → Expr → Parser Expr :=
  if r = .access then accessFrom expression else chainFrom (levelOf r) (ofRank expression operand)

theorem continuation_access (expression : Parser Expr) (operand : Rank) :
    continuation expression .access operand = accessFrom expression := if_pos rfl

theorem continuation_chain {r operand : Rank} {node : Span → Expr → Expr → Expr}
    (h : ChainOperator r k node) (expression : Parser Expr) :
    continuation expression r operand =
      chainFrom (levelOf r) (ofRank expression operand) :=
  if_neg (by rintro rfl; cases h)

theorem tighter_of_operand? {r operand : Rank} (h : operand? r = some operand) :
    Tighter r operand := by
  cases r <;> cases h <;> constructor

theorem operand?_of_chainOperator {r operand : Rank} {node : Span → Expr → Expr → Expr}
    (hop : ChainOperator r k node) (hr : Tighter r operand) : operand? r = some operand := by
  cases hop <;> cases hr <;> rfl

theorem ofRank_eq {r operand : Rank} (h : operand? r = some operand) (expression : Parser Expr) :
    ofRank expression r =
      restoring (ofRank expression operand >>=
        continuation expression r operand (nestingLimit + 1)) := by
  cases r <;> cases h <;> rfl

theorem continuation_stops {r operand : Rank} (h : operand? r = some operand)
    (hs : Stops r s.kind) (expression : Parser Expr) (rounds : Nat) (e : Expr) :
    continuation expression r operand (rounds + 1) e s = (some e, s) := by
  unfold continuation
  split
  · next hr =>
    subst hr
    apply accessFrom_other
    · intro hk
      rw [hk] at hs
      exact absurd hs (Nat.lt_irrefl _)
    · intro hk
      rw [hk] at hs
      exact absurd hs (Nat.lt_irrefl _)
  · exact chainFrom_none hs.levelOf

/-- The parser of a rank has read a phrase and goes on behind it, `n` levels deeper. -/
inductive Grown (expression : Parser Expr) (r operand : Rank) (us : List Kind) (d : Nat)
    (fs : List LocatedFault) (e : Expr) (length : Nat) : Option Expr × ParserState → Prop where
  | more {n : Nat} {left : Expr} {s : ParserState} :
    SameAs e left → At s us (d + n) fs → d + n ≤ nestingLimit → 2 * n < length →
    Grown expression r operand us d fs e length
      (continuation expression r operand (nestingLimit + 1 - n) left s)
  | tooDeep {s : ParserState} {span : Span} :
    nestingLimit + 1 < d + length → s.faults = fs ++ [⟨.tooDeep, span⟩] →
    Grown expression r operand us d fs e length (none, s)

def Grows (r operand : Rank) (ts : List Kind) (e : Expr) : Prop :=
  ∀ ⦃levels : Nat⦄ ⦃s : ParserState⦄ ⦃k : Kind⦄ ⦃us : List Kind⦄ ⦃d : Nat⦄
    ⦃fs : List LocatedFault⦄, At s (ts ++ k :: us) d fs → Stops operand k → d ≤ nestingLimit →
    nestingLimit < levels + d →
    Grown (expressionWithin levels) r operand (k :: us) d fs e ts.length
      ((ofRank (expressionWithin levels) operand >>=
        continuation (expressionWithin levels) r operand (nestingLimit + 1)) s)

theorem Grows.direct {r operand : Rank} {e : Expr} (hr : operand? r = some operand)
    (h : Grows r operand ts e) : Direct r ts e := by
  intro levels s k us d fs hs hk hd hl
  have hgrown := h hs (hk.tighter (tighter_of_operand? hr)) hd hl
  rw [ofRank_eq hr]
  generalize hrun : (_ >>= _ : Parser Expr) s = result at hgrown
  cases hgrown with
  | @more n left t ha ht hn hlen =>
    apply ends_restoring hs
    rw [hrun, show nestingLimit + 1 - n = nestingLimit - n + 1 by omega,
      continuation_stops hr (by rwa [ht.kind])]
    exact .read ha ht
  | tooDeep htight hf =>
    apply ends_restoring hs
    rw [hrun]
    exact Ends.tooDeep (d := d) htight hf

theorem Direct.grows {r operand : Rank} {e : Expr} (h : Direct operand ts e)
    (hpos : 0 < ts.length) : Grows r operand ts e := by
  intro levels s k us d fs hs hk hd hl
  apply (h hs hk hd hl).elim
  · intro left t ha ht
    exact Grown.more (n := 0) ha ht hd (by omega)
  · intro t span htight hf
    exact .tooDeep htight hf

/-- One more operator and operand. -/
theorem Grows.chained {r operand : Rank} {node : Span → Expr → Expr → Expr} {left right : Expr}
    (hop : ChainOperator r k node) (hr : Tighter r operand) (hleft : Grows r operand ts left)
    (hright : Direct operand us right) (hpos : 0 < us.length) (span : Span) :
    Grows r operand (ts ++ k :: us) (node span left right) := by
  intro levels s c vs d fs hs hc hd hl
  have hk : Stops operand k := by
    rw [Stops, reach_chainOperator hop]
    exact hr.looseness
  rw [List.append_assoc, List.cons_append] at hs
  have hgrown := hleft hs hk hd hl
  have hlength : (ts ++ k :: us).length = ts.length + us.length + 1 := by simp; omega
  rw [hlength]
  generalize (_ >>= _ : Parser Expr) s = result at hgrown ⊢
  cases hgrown with
  | tooDeep htight hf => exact .tooDeep (by omega) hf
  | @more n left' t ha ht hn hlen =>
    have hjoin : levelOf r t.kind =
        some fun left right => node (left.span.merge right.span) left right :=
      levelOf_eq_some.2 ⟨node, by rwa [ht.kind], rfl⟩
    rw [continuation_chain hop, show nestingLimit + 1 - n = nestingLimit - n + 1 by omega,
      chainFrom_some hjoin]
    apply (ends_enter ht.next hn).elim
    · intro _ u hlt hu
      apply (hright hu hc hlt (by omega)).elim
      · intro right' v hb hv
        rw [← continuation_chain hop, show nestingLimit - n = nestingLimit + 1 - (n + 1) by omega]
        refine .more ?_ hv hlt (by omega)
        rw [SameAs, hop.bare_node, hop.bare_node, ha, hb]
      · intro v span htight hf
        exact .tooDeep (by omega) hf
    · intro u span htight hf
      exact .tooDeep (by omega) hf

theorem Grows.member {object : Expr} {field : Name} (hobject : Grows .access .primary ts object)
    (hfield : FieldName k field.text) (span : Span) :
    Grows .access .primary (ts ++ [.symbol .dot, k]) (.member span object field) := by
  intro levels s c vs d fs hs hc hd hl
  rw [List.append_assoc, List.cons_append, List.cons_append, List.nil_append] at hs
  have hgrown := hobject hs (by decide) hd hl
  have hlength : (ts ++ [.symbol .dot, k]).length = ts.length + 2 := by simp
  rw [hlength]
  generalize (_ >>= _ : Parser Expr) s = result at hgrown ⊢
  cases hgrown with
  | tooDeep htight hf => exact .tooDeep (by omega) hf
  | @more n object' t ha ht hn hlen =>
    rw [show nestingLimit + 1 - n = nestingLimit - n + 1 by omega, continuation_access,
      accessFrom_dot ht.kind]
    apply (ends_enter ht hn).elim
    · intro _ u hlt hu
      rw [advance_bind]
      have hname : fieldName u.next = (some ⟨field.text, u.next.here⟩, u.next.next) :=
        fieldName_eq_some.2 ⟨by rwa [hu.next.kind], rfl, rfl⟩
      rw [bind_of_some hname, ← continuation_access _ .primary,
        show nestingLimit - n = nestingLimit + 1 - (n + 1) by omega]
      refine .more ?_ hu.next.next hlt (by omega)
      simp only [SameAs, Expr.bare, show object'.bare = object.bare from ha]
    · intro u span htight hf
      exact .tooDeep (by omega) hf

theorem Grows.index {object place : Expr} (hobject : Grows .access .primary ts object)
    (hplace : Reaches expressionWithin (SameAs place) us) (span : Span) :
    Grows .access .primary (ts ++ .symbol .leftBracket :: us ++ [.symbol .rightBracket])
      (.index span object place) := by
  intro levels s c vs d fs hs hc hd hl
  rw [List.append_assoc, List.append_assoc, List.cons_append, List.cons_append,
    List.nil_append] at hs
  have hgrown := hobject hs (by decide) hd hl
  have hlength : (ts ++ Kind.symbol .leftBracket :: us ++ [Kind.symbol .rightBracket]).length =
      ts.length + us.length + 2 := by simp; omega
  rw [hlength]
  generalize (_ >>= _ : Parser Expr) s = result at hgrown ⊢
  cases hgrown with
  | tooDeep htight hf => exact .tooDeep (by omega) hf
  | @more n object' t ha ht hn hlen =>
    rw [show nestingLimit + 1 - n = nestingLimit - n + 1 by omega, continuation_access,
      accessFrom_bracket ht.kind]
    apply (ends_enter ht hn).elim
    · intro _ u hlt hu
      rw [advance_bind]
      apply (hplace hu.next (by decide) hlt (by omega)).elim
      · intro place' v hb hv
        have hrounds : nestingLimit - n = nestingLimit + 1 - (n + 1) := by omega
        rw [bind_of_some (expect_eq_some.2 ⟨hv.kind, rfl⟩), previous_bind,
          ← continuation_access _ .primary, hrounds]
        refine .more ?_ hv.next hlt (by omega)
        simp only [SameAs, Expr.bare, show object'.bare = object.bare from ha,
          show place'.bare = place.bare from hb]
      · intro v span htight hf
        exact .tooDeep (by omega) hf
    · intro u span htight hf
      exact .tooDeep (by omega) hf

/-! ### Prefixes, comparisons and conditionals -/

theorem prefixOp?_of_opener (h : Opener k) : prefixOp? k = none := by
  rcases h with ⟨⟨⟩⟩ | _ | _ | _ | _ <;> rfl

theorem ofRank_unary (expression : Parser Expr) :
    ofRank expression .unary = prefixed (ofRank expression .access) (nestingLimit + 1) := rfl

/-- The levels run out before the rounds do, so that more rounds change nothing. -/
theorem prefixed_rounds (p : Parser Expr) (a b : Nat) (hd : s.depth ≤ nestingLimit)
    (ha : nestingLimit < a + s.depth) (hb : nestingLimit < b + s.depth) :
    prefixed p a s = prefixed p b s := by
  induction a generalizing b s with
  | zero => omega
  | succ a ih =>
    obtain ⟨b, rfl⟩ : ∃ n, b = n + 1 := Nat.exists_eq_add_one.2 (by omega)
    cases hop : prefixOp? s.kind with
    | none => rw [prefixed_none hop, prefixed_none hop]
    | some op =>
      have hnested : nested (prefixed p a) s.next = nested (prefixed p b) s.next := by
        apply nested_congr
        rw [s.depth_next]
        intro hlt
        exact ih b hlt (by simp only; omega) (by simp only; omega)
      rw [prefixed_some hop, prefixed_some hop, bind_apply, bind_apply, hnested]

theorem Direct.unary {e : Expr} (h : Direct .access ts e) (hts : ts = k :: us) (hk : Opener k) :
    Direct .unary ts e := by
  intro levels s c vs d fs hs hc hd hl
  have hkind : s.kind = k := by
    rw [hts] at hs
    exact hs.kind
  rw [ofRank_unary, prefixed_none (by rw [hkind]; exact prefixOp?_of_opener hk)]
  exact h hs (hc.tighter .unary) hd hl

theorem Direct.prefixed {op : UnaryOp} {e : Expr} (hop : PrefixOperator k op)
    (h : Direct .unary ts e) (hpos : 0 < ts.length) (span : Span) :
    Direct .unary (k :: ts) (.unary span op e) := by
  intro levels s c us d fs hs hc hd hl
  have hkind : prefixOp? s.kind = some op := by
    rw [hs.kind]
    exact prefixOp?_eq_some.2 hop
  rw [ofRank_unary, prefixed_some hkind]
  have hnested : Ends (c :: us) d fs (SameAs e) (nestingLimit < d + ts.length)
      (nested (Parser.prefixed (ofRank (expressionWithin levels) .access) nestingLimit)
        s.next) := by
    apply ends_nested hs.next hd (by omega)
    intro t hlt ht
    have hdepth := ht.depth
    rw [prefixed_rounds _ nestingLimit (nestingLimit + 1) (by omega) (by omega) (by omega)]
    exact (h ht hc hlt (by omega)).imp (by omega) fun _ ha => ha
  apply hnested.bind (by rw [List.length_cons]; omega)
  intro e' t he ht
  exact .read (by rw [SameAs, Expr.bare, Expr.bare, he]) ht

theorem Direct.comparison {e : Expr} (h : Direct .sum ts e) : Direct .comparison ts e := by
  intro levels s k us d fs hs hk hd hl
  apply (h hs (hk.tighter .comparison) hd hl).bind id
  intro e' t he ht
  rw [kind_bind, ht.kind, hk.comparison?]
  exact .read he ht

theorem Direct.compared {op : BinaryOp} {left right : Expr} (hop : ComparisonOperator k op)
    (hleft : Direct .sum ts left) (hright : Direct .sum us right) (span : Span) :
    Direct .comparison (ts ++ k :: us) (.binary span op left right) := by
  intro levels s c vs d fs hs hc hd hl
  have hk : Stops .sum k := by cases hop <;> decide
  have hlength : (ts ++ k :: us).length = ts.length + us.length + 1 := by simp; omega
  rw [List.append_assoc, List.cons_append] at hs
  rw [hlength]
  apply (hleft hs hk hd hl).bind (by omega)
  intro left' t ha ht
  rw [kind_bind, ht.kind, comparison?_eq_some.2 hop]
  apply Ends.bind (hright ht.next (hc.tighter .comparison) hd hl) (by omega)
  intro right' u hb hu
  rw [kind_bind, hu.kind, hc.comparison?]
  exact .read (by simp only [SameAs, joinBinary, Expr.bare, show left'.bare = _ from ha,
    show right'.bare = _ from hb]) hu

theorem eat_of_ne {symbol : Symbol} (h : s.kind ≠ .symbol symbol) :
    eat symbol s = (some false, s) := eat_eq_false.2 ⟨h, rfl⟩

theorem eat_of_eq {symbol : Symbol} (h : s.kind = .symbol symbol) :
    eat symbol s = (some true, s.next) := eat_eq_true.2 ⟨h, rfl⟩

theorem Direct.lone {e : Expr} (h : Direct .coalesce ts e) : Direct .conditional ts e := by
  intro levels s k us d fs hs hk hd hl
  apply (h hs (hk.tighter .conditional) hd hl).bind id
  intro e' t he ht
  have hquestion : t.kind ≠ .symbol .question := by
    rw [ht.kind]
    rintro rfl
    exact absurd hk (by decide)
  rw [bind_of_some (eat_of_ne hquestion)]
  exact .read he ht

theorem Direct.conditional {condition yes no : Expr} {vs : List Kind}
    (hcondition : Direct .coalesce ts condition) (hyes : Reaches expressionWithin (SameAs yes) us)
    (hno : Reaches expressionWithin (SameAs no) vs) (span : Span) :
    Direct .conditional (ts ++ .symbol .question :: us ++ .symbol .colon :: vs)
      (.conditional span condition yes no) := by
  intro levels s k ws d fs hs hk hd hl
  have hlength : (ts ++ Kind.symbol .question :: us ++ Kind.symbol .colon :: vs).length =
      ts.length + us.length + vs.length + 2 := by simp; omega
  simp only [List.append_assoc, List.cons_append] at hs
  rw [hlength]
  apply (hcondition hs (by decide) hd hl).bind (by omega)
  intro condition' t hc ht
  rw [bind_of_some (eat_of_eq ht.kind)]
  apply Ends.bind (hyes ht.next (by decide) hd hl) (by omega)
  intro yes' t₁ hy ht₁
  apply (ends_expect ht₁).bind nofun
  intro _ t₂ _ ht₂
  apply (hno ht₂ hk hd hl).bind (by omega)
  intro no' t₃ hn ht₃
  exact .read (by simp only [SameAs, Expr.bare, show condition'.bare = _ from hc,
    show yes'.bare = _ from hy, show no'.bare = _ from hn]) ht₃

end JsonTemplate.Parser
