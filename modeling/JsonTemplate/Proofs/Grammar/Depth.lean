import JsonTemplate.Proofs.Compilation
import JsonTemplate.Proofs.Evaluation.Height

/-! Parsed expressions are low, however many tokens there are. The limit on nesting is not a limit
on height: a chain wraps its first operand once for every level that is left, and gives the levels
back at its end. Between an expression and the next one inside it there are six such chains, a
comparison, a conditional and a primary expression. So with one level more to go, the height grows
by six times the levels left and three, and all heights together are three times a square. -/

namespace JsonTemplate

/-- How many levels of nesting are left. -/
def ParserState.room (s : ParserState) : Nat := nestingLimit - s.depth

namespace ParserState

variable {s s' : ParserState}

@[simp] theorem room_next (s : ParserState) : s.next.room = s.room := by
  rw [room, depth_next, room]

theorem room_congr (h : s'.depth = s.depth) : s'.room = s.room := by
  rw [room, h, room]

/-- A level that is taken up is missing from those left. -/
theorem room_eq_succ (h : s.depth < nestingLimit) (hs' : s'.depth = s.depth + 1) :
    s.room = s'.room + 1 := by
  rw [room, room, hs']
  omega

end ParserState

namespace Parser

variable {α : Type} {s s' : ParserState}

/-! ### Heights -/

/-- The height that an expression of all levels left can have, with so many chains of accesses or
operators around it, and so many single nodes. -/
def heightLimit (chains nodes room : Nat) : Nat := 3 * room * room + chains * room + nodes

variable {chains nodes : Nat}

theorem heightLimit_mono {room more : Nat} (h : room ≤ more) :
    heightLimit chains nodes room ≤ heightLimit chains nodes more := by
  have hsquare : 3 * room * room ≤ 3 * more * more := Nat.mul_le_mul (Nat.mul_le_mul_left 3 h) h
  have hchains : chains * room ≤ chains * more := Nat.mul_le_mul_left chains h
  unfold heightLimit
  omega

theorem heightLimit_chain (room : Nat) :
    heightLimit (chains + 1) nodes room = heightLimit chains nodes room + room := by
  rw [heightLimit, heightLimit, Nat.add_mul, Nat.one_mul]
  omega

theorem heightLimit_succ (room : Nat) :
    heightLimit chains nodes (room + 1) =
      heightLimit chains nodes room + (6 * room + 3 + chains) := by
  simp only [heightLimit, Nat.mul_add, Nat.add_mul, Nat.mul_one]
  omega

/-- The results of a parser measure no more than a limit on what the levels left allow. The parser
takes up no level for good. -/
def Low (p : Parser α) (measure : α → Nat) (limit : Nat → Nat) : Prop :=
  ∀ ⦃s s' : ParserState⦄ ⦃a : α⦄, p s = (some a, s') →
    s'.depth = s.depth ∧ measure a ≤ limit s.room

/-- One level deeper there is one level less. -/
theorem Low.nested {p : Parser α} {measure : α → Nat} {limit limit' : Nat → Nat}
    (h : Low p measure limit) (hlimit : ∀ room, limit room ≤ limit' (room + 1)) :
    Low (Parser.nested p) measure limit' := by
  intro s s' a hrun
  obtain ⟨hd, s₁, hp, rfl⟩ := nested_eq_some.1 hrun
  have hroom : s.room = { s with depth := s.depth + 1 }.room + 1 :=
    ParserState.room_eq_succ hd rfl
  obtain ⟨hdepth, hmeasure⟩ := h hp
  rw [hroom]
  exact ⟨Nat.sub_eq_of_eq_add hdepth, Nat.le_trans hmeasure (hlimit _)⟩

/-! ### Operators -/

open JsonTemplate.Expr (height)
open Grammar (Rank)

theorem height_join {r : Rank} {k : Token.Kind} {join : Expr → Expr → Expr}
    (h : levelOf r k = some join) (left right : Expr) :
    (join left right).height = max left.height right.height + 1 := by
  obtain ⟨node, hop, rfl⟩ := levelOf_eq_some.1 h
  cases hop <;> simp only [height]

/-- Each operator of a chain adds a node and takes up a level. `bound` is for the operands before
the next operator and behind it. -/
theorem height_chainFrom {r : Rank} {p : Parser Expr} (hp : Low p height (heightLimit chains nodes))
    (rounds : Nat) {bound : Nat} {left e : Expr} (hroom : heightLimit chains nodes s.room ≤ bound)
    (hleft : left.height ≤ bound) (h : chainFrom (levelOf r) p rounds left s = (some e, s')) :
    e.height ≤ bound + s.room := by
  induction rounds generalizing bound left s with
  | zero => cases h
  | succ rounds ih =>
    cases hj : levelOf r s.kind with
    | none =>
      rw [chainFrom_none hj] at h
      cases h
      exact Nat.le_add_right_of_le hleft
    | some join =>
      rw [chainFrom_some hj] at h
      obtain ⟨_, s₁, henter, h⟩ := bind_eq_some.1 h
      obtain ⟨hd, rfl⟩ := enter_eq_some.1 henter
      obtain ⟨right, s₂, hoperand, h⟩ := bind_eq_some.1 h
      obtain ⟨hdepth, hright⟩ := hp hoperand
      rw [← ParserState.room_congr hdepth] at hright
      rw [ParserState.depth_next] at hd hdepth
      have hless := ParserState.room_eq_succ hd hdepth
      have hmono : heightLimit chains nodes s₂.room ≤ heightLimit chains nodes s.room :=
        heightLimit_mono (by omega)
      have hnode : (join left right).height ≤ bound + 1 := by
        rw [height_join hj]
        omega
      have hrest := ih (by omega) hnode h
      omega

theorem Low.chain {r : Rank} {p : Parser Expr} (hp : Low p height (heightLimit chains nodes)) :
    Low (Parser.chain (levelOf r) p) height (heightLimit (chains + 1) nodes) := by
  intro s s' e hrun
  obtain ⟨s₂, h, rfl⟩ := restoring_eq.1 hrun
  obtain ⟨left, s₁, hfirst, h⟩ := bind_eq_some.1 h
  obtain ⟨hdepth, hleft⟩ := hp hfirst
  have hroom := ParserState.room_congr hdepth
  refine ⟨rfl, ?_⟩
  rw [heightLimit_chain, ← hroom]
  rw [← hroom] at hleft
  exact height_chainFrom hp _ (Nat.le_refl _) hleft h

theorem Low.comparison {p : Parser Expr} (hp : Low p height (heightLimit chains nodes)) :
    Low (Parser.comparison p) height (heightLimit chains (nodes + 1)) := by
  intro s s' e h
  obtain ⟨left, s₁, hfirst, h⟩ := bind_eq_some.1 h
  obtain ⟨hdepth, hleft⟩ := hp hfirst
  rw [kind_bind] at h
  cases hop : comparison? s₁.kind with
  | none =>
    rw [hop] at h
    cases h
    exact ⟨hdepth, Nat.le_succ_of_le hleft⟩
  | some op =>
    simp only [hop, advance_bind] at h
    obtain ⟨right, s₂, hsecond, h⟩ := bind_eq_some.1 h
    obtain ⟨hdepth', hright⟩ := hp hsecond
    rw [kind_bind] at h
    rw [ParserState.depth_next] at hdepth'
    rw [ParserState.room_next, ParserState.room_congr hdepth] at hright
    cases hnext : comparison? s₂.kind with
    | none =>
      rw [hnext] at h
      cases h
      refine ⟨hdepth'.trans hdepth, ?_⟩
      simp only [joinBinary, height]
      exact Nat.succ_le_succ (Nat.max_le.2 ⟨hleft, hright⟩)
    | some next =>
      rw [hnext] at h
      cases h

/-- A prefix operator adds a node, for which the level that it takes up has room. -/
theorem Low.prefixed {p : Parser Expr} (hp : Low p height (heightLimit chains nodes))
    (rounds : Nat) : Low (Parser.prefixed p rounds) height (heightLimit chains nodes) := by
  induction rounds with
  | zero => intro s s' e h; cases h
  | succ rounds ih =>
    intro s s' e h
    cases hop : prefixOp? s.kind with
    | none =>
      rw [prefixed_none hop] at h
      exact hp h
    | some op =>
      rw [prefixed_some hop] at h
      obtain ⟨inner, s₁, hoperand, h⟩ := bind_eq_some.1 h
      have hnested : Low (Parser.nested (Parser.prefixed p rounds)) (fun e => e.height + 1)
          (heightLimit chains nodes) := by
        have hsucc : Low (Parser.prefixed p rounds) (fun e => e.height + 1)
            (fun room => heightLimit chains nodes room + 1) :=
          fun _ _ _ h => ⟨(ih h).1, Nat.succ_le_succ (ih h).2⟩
        refine hsucc.nested fun room => ?_
        rw [heightLimit_succ]
        omega
      obtain ⟨hdepth, hinner⟩ := hnested hoperand
      cases h
      rw [ParserState.depth_next] at hdepth
      rw [ParserState.room_next] at hinner
      exact ⟨hdepth, hinner⟩

theorem depth_fieldName {field : Name} (h : fieldName s = (some field, s')) :
    s'.depth = s.depth := by
  obtain ⟨-, -, rfl⟩ := fieldName_eq_some.1 h
  exact ParserState.depth_next s

theorem depth_key {text : String} (h : key s = (some text, s')) : s'.depth = s.depth := by
  rw [key, kind_bind] at h
  cases hk : keyText? s.kind with
  | none =>
    rw [hk] at h
    cases h
  | some found =>
    rw [hk] at h
    cases h
    exact ParserState.depth_next s

theorem depth_expect {symbol : Symbol} {u : Unit} (h : expect symbol s = (some u, s')) :
    s'.depth = s.depth := by
  obtain ⟨-, rfl⟩ := expect_eq_some.1 h
  exact ParserState.depth_next s

/-- Each access adds a node and takes up a level. An index in brackets is no higher than the object
may be from the start. -/
theorem height_accessFrom {p : Parser Expr} (hp : Low p height (heightLimit chains nodes))
    (rounds : Nat) {bound : Nat} {object e : Expr}
    (hroom : heightLimit chains nodes s.room ≤ bound) (hobject : object.height ≤ bound)
    (h : accessFrom p rounds object s = (some e, s')) : e.height ≤ bound + s.room := by
  induction rounds generalizing bound object s with
  | zero => cases h
  | succ rounds ih =>
    by_cases hdot : s.kind = .symbol .dot
    · rw [accessFrom_dot hdot] at h
      obtain ⟨_, s₁, henter, h⟩ := bind_eq_some.1 h
      obtain ⟨hd, rfl⟩ := enter_eq_some.1 henter
      rw [advance_bind] at h
      obtain ⟨field, s₂, hfield, h⟩ := bind_eq_some.1 h
      have hdepth := depth_fieldName hfield
      rw [ParserState.depth_next] at hdepth
      have hless := ParserState.room_eq_succ hd hdepth
      have hmono : heightLimit chains nodes s₂.room ≤ heightLimit chains nodes s.room :=
        heightLimit_mono (by omega)
      have hnode : (Expr.member (object.span.merge field.span) object field).height ≤ bound + 1 := by
        simp only [height]
        omega
      have hrest := ih (by omega) hnode h
      omega
    by_cases hbracket : s.kind = .symbol .leftBracket
    · rw [accessFrom_bracket hbracket] at h
      obtain ⟨_, s₁, henter, h⟩ := bind_eq_some.1 h
      obtain ⟨hd, rfl⟩ := enter_eq_some.1 henter
      rw [advance_bind] at h
      obtain ⟨place, s₂, hindex, h⟩ := bind_eq_some.1 h
      obtain ⟨hdepth, hplace⟩ := hp hindex
      obtain ⟨_, s₃, hclose, h⟩ := bind_eq_some.1 h
      have hdepth := (depth_expect hclose).trans hdepth
      rw [← ParserState.room_congr hdepth] at hplace
      rw [ParserState.depth_next] at hdepth
      have hless := ParserState.room_eq_succ hd hdepth
      rw [previous_bind] at h
      have hmono : heightLimit chains nodes s₃.room ≤ heightLimit chains nodes s.room :=
        heightLimit_mono (by omega)
      have hnode : (Expr.index (object.span.merge s₃.previous) object place).height ≤
          bound + 1 := by
        simp only [height]
        omega
      have hrest := ih (by omega) hnode h
      omega
    · rw [accessFrom_other hdot hbracket] at h
      cases h
      exact Nat.le_add_right_of_le hobject

theorem Low.access {p primary : Parser Expr} (hp : Low p height (heightLimit chains nodes))
    (hprimary : Low primary height (heightLimit chains (nodes + 1))) :
    Low (Parser.access p primary) height (heightLimit (chains + 1) (nodes + 1)) := by
  intro s s' e hrun
  obtain ⟨s₂, h, rfl⟩ := restoring_eq.1 hrun
  obtain ⟨object, s₁, hfirst, h⟩ := bind_eq_some.1 h
  obtain ⟨hdepth, hobject⟩ := hprimary hfirst
  have hroom := ParserState.room_congr hdepth
  refine ⟨rfl, ?_⟩
  rw [heightLimit_chain, ← hroom]
  rw [← hroom] at hobject
  exact height_accessFrom hp _ (Nat.le_succ _) hobject h

/-! ### Lists and primary expressions -/

section Items
variable {item : Parser α} {one : α → Nat} {many : List α → Nat} {limit : Nat → Nat}

theorem low_itemsFrom (hitem : Low item one limit) (close : Symbol) (hnil : many [] = 0)
    (hcons : ∀ a as, many (a :: as) = max (one a) (many as)) (rounds : Nat) :
    Low (itemsFrom item close rounds) many limit := by
  induction rounds with
  | zero => intro s s' as h; cases h
  | succ rounds ih =>
    intro s s' as h
    rw [itemsFrom, kind_bind] at h
    by_cases hclose : s.kind = .symbol close
    · rw [if_pos hclose] at h
      cases h
      exact ⟨rfl, by rw [hnil]; exact Nat.zero_le _⟩
    · rw [if_neg hclose] at h
      obtain ⟨a, s₁, hfirst, h⟩ := bind_eq_some.1 h
      obtain ⟨hdepth, ha⟩ := hitem hfirst
      obtain ⟨comma, s₂, hcomma, hrest⟩ := bind_eq_some.1 h
      cases comma with
      | false =>
        obtain ⟨-, rfl⟩ := eat_eq_false.1 hcomma
        cases hrest
        exact ⟨hdepth, by rwa [hcons, hnil, Nat.max_zero]⟩
      | true =>
        obtain ⟨-, rfl⟩ := eat_eq_true.1 hcomma
        obtain ⟨others, s₃, hmore, hpure⟩ := bind_eq_some.1 hrest
        obtain ⟨hdepth', hothers⟩ := ih hmore
        rw [ParserState.depth_next] at hdepth'
        rw [ParserState.room_next, ParserState.room_congr hdepth] at hothers
        cases hpure
        exact ⟨hdepth'.trans hdepth, by rw [hcons]; exact Nat.max_le.2 ⟨ha, hothers⟩⟩

/-- What stands between two symbols keeps its measure. -/
theorem low_enclosed (node : Span → α → Expr) (hitem : Low item one limit) {close : Symbol}
    {e : Expr} {start : Span}
    (h : (do let a ← item
             expect close
             pure (node (start.merge (← previous)) a) : Parser Expr) s = (some e, s')) :
    s'.depth = s.depth ∧ ∃ a span, one a ≤ limit s.room ∧ e = node span a := by
  obtain ⟨a, s₁, hfirst, hrest⟩ := bind_eq_some.1 h
  obtain ⟨hdepth, ha⟩ := hitem hfirst
  obtain ⟨_, s₂, hclose, hpure⟩ := bind_eq_some.1 hrest
  have hdepth := (depth_expect hclose).trans hdepth
  cases hpure
  exact ⟨hdepth, a, _, ha, rfl⟩

end Items

section Primary
variable {p : Parser Expr} {limit : Nat → Nat} (hp : Low p height limit)
include hp

theorem low_items (close : Symbol) : Low (items p close) Expr.heightOfItems limit :=
  fun _ _ _ h => low_itemsFrom hp close rfl (fun _ _ => rfl) _ h

theorem low_entry : Low (entry p) (fun e => e.2.height) limit := by
  intro s s' e h
  obtain ⟨text, s₁, hkey, hrest⟩ := bind_eq_some.1 h
  obtain ⟨_, s₂, hcolon, hrest⟩ := bind_eq_some.1 hrest
  obtain ⟨value, s₃, hlast, hpure⟩ := bind_eq_some.1 hrest
  have hdepth := (depth_expect hcolon).trans (depth_key hkey)
  obtain ⟨hdepth', hvalue⟩ := hp hlast
  rw [ParserState.room_congr hdepth] at hvalue
  cases hpure
  exact ⟨hdepth'.trans hdepth, hvalue⟩

theorem low_entries (close : Symbol) : Low (items (entry p) close) Expr.heightOfEntries limit :=
  fun _ _ _ h => low_itemsFrom (low_entry hp) close rfl (fun _ _ => rfl) _ h

omit hp in
theorem height_literal {k : Token.Kind} {e : Expr} (h : Grammar.Literal k e) : e.height = 1 := by
  cases h <;> simp only [height]

/-- A primary expression is a node around expressions, or on its own. -/
theorem Low.primary : Low (Parser.primary p) height (fun room => limit room + 1) := by
  intro s s' e h
  by_cases harray : s.kind = .symbol .leftBracket
  · rw [primary_array harray, array, advance_bind] at h
    obtain ⟨hdepth, items, span, hitems, rfl⟩ := low_enclosed .array (low_items hp _) h
    rw [ParserState.depth_next] at hdepth
    rw [ParserState.room_next] at hitems
    exact ⟨hdepth, Nat.succ_le_succ hitems⟩
  by_cases hmap : s.kind = .symbol .leftBrace
  · rw [primary_map hmap, map, advance_bind] at h
    obtain ⟨hdepth, entries, span, hentries, rfl⟩ := low_enclosed .map (low_entries hp _) h
    rw [ParserState.depth_next] at hdepth
    rw [ParserState.room_next] at hentries
    exact ⟨hdepth, Nat.succ_le_succ hentries⟩
  by_cases hparen : s.kind = .symbol .leftParen
  · rw [primary_paren hparen, paren, advance_bind] at h
    obtain ⟨hdepth, inner, span, hinner, rfl⟩ := low_enclosed .paren hp h
    rw [ParserState.depth_next] at hdepth
    rw [ParserState.room_next] at hinner
    exact ⟨hdepth, Nat.succ_le_succ hinner⟩
  by_cases hname : ∃ name, s.kind = .identifier name
  · obtain ⟨name, hname⟩ := hname
    by_cases hcall : s.following = .symbol .leftParen
    · rw [primary_call hname hcall, call, advance_bind] at h
      obtain ⟨_, s₁, hopen, hrest⟩ := bind_eq_some.1 h
      have hopen := depth_expect hopen
      rw [ParserState.depth_next] at hopen
      obtain ⟨hdepth, arguments, span, harguments, rfl⟩ :=
        low_enclosed (fun span arguments => .call span ⟨name, s.here⟩ arguments)
          (low_items hp _) hrest
      rw [ParserState.room_congr hopen] at harguments
      exact ⟨hdepth.trans hopen, Nat.succ_le_succ harguments⟩
    · rw [primary_identifier hname hcall] at h
      cases h
      exact ⟨ParserState.depth_next s, Nat.le_add_left 1 _⟩
  cases hl : literal? s.here s.kind with
  | some found =>
    rw [primary_literal hl] at h
    cases h
    refine ⟨ParserState.depth_next s, ?_⟩
    rw [height_literal (literal_of_literal? hl)]
    exact Nat.le_add_left 1 _
  | none =>
    rw [primary_other harray hmap hparen (fun name hn => hname ⟨name, hn⟩) hl] at h
    cases h

end Primary

/-! ### Expressions of any nesting -/

section Ranks
variable {p : Parser Expr} (hp : Low p height (heightLimit 0 0))
include hp

theorem Low.factor : Low (Parser.factor p) height (heightLimit 1 1) :=
  (hp.access (Low.primary hp)).prefixed _

theorem Low.sum : Low (Parser.sum p) height (heightLimit 3 1) := (Low.factor hp).chain.chain

theorem Low.operators : Low (Parser.ofRank p .coalesce) height (heightLimit 6 2) :=
  (Low.sum hp).comparison.chain.chain.chain

theorem Low.ternary : Low (Parser.ofRank p .conditional) height (heightLimit 6 3) := by
  intro s s' e h
  obtain ⟨condition, s₁, hfirst, hrest⟩ := bind_eq_some.1 h
  obtain ⟨hdepth, hcondition⟩ := Low.operators hp hfirst
  obtain ⟨asked, s₂, hasked, hbranches⟩ := bind_eq_some.1 hrest
  cases asked with
  | false =>
    obtain ⟨-, rfl⟩ := eat_eq_false.1 hasked
    cases hbranches
    exact ⟨hdepth, Nat.le_succ_of_le hcondition⟩
  | true =>
    obtain ⟨-, rfl⟩ := eat_eq_true.1 hasked
    rw [← ParserState.depth_next] at hdepth
    obtain ⟨yes, s₃, hsecond, hbranches⟩ := bind_eq_some.1 hbranches
    obtain ⟨hdepth₃, hyes⟩ := hp hsecond
    obtain ⟨_, s₄, hcolon, hbranches⟩ := bind_eq_some.1 hbranches
    obtain ⟨no, s₅, hthird, hpure⟩ := bind_eq_some.1 hbranches
    have hdepth₄ := (depth_expect hcolon).trans (hdepth₃.trans hdepth)
    obtain ⟨hdepth₅, hno⟩ := hp hthird
    rw [ParserState.room_congr hdepth] at hyes
    rw [ParserState.room_congr hdepth₄] at hno
    cases hpure
    refine ⟨hdepth₅.trans hdepth₄, ?_⟩
    have hbranch : heightLimit 0 0 s.room ≤ heightLimit 6 2 s.room := by
      unfold heightLimit
      omega
    simp only [height]
    have htop : heightLimit 6 3 s.room = heightLimit 6 2 s.room + 1 := rfl
    omega

end Ranks

/-- With `room` levels left, an expression is at most `3 * room * room` high. -/
theorem low_expressionWithin (levels : Nat) :
    Low (expressionWithin levels) height (heightLimit 0 0) := by
  induction levels with
  | zero => intro s s' e h; cases h
  | succ levels ih =>
    rw [expressionWithin_succ]
    refine (Low.ternary ih).nested fun room => ?_
    -- Six chains and three nodes are just what another level of nesting adds to the square.
    rw [heightLimit_succ]
    unfold heightLimit
    omega

end Parser

theorem Parsing.height_le {tokens : List Token} {e : Expr}
    (h : (ofTokens tokens).expr = some e) : e.height ≤ 3 * 64 * 64 := by
  unfold ofTokens at h
  simp only at h
  split at h
  · cases h
  split at h
  · cases h
  · next e' s hrun =>
    have hheight : e'.height ≤ 3 * 64 * 64 := (Parser.low_expressionWithin _ hrun).2
    split at h <;> cases h <;> exact hheight

/-- No way down a parsed expression has more nodes than three times the square of the limit on
nesting. A walk over the expression of a program and each of its runs need no more calls inside
each other than that. -/
theorem Parsing.depth_bounded :
    (∀ tokens e, (ofTokens tokens).expr = some e →
      ∀ nodes, e.Path nodes → nodes.length ≤ 3 * 64 * 64) ∧
    ∀ o source p, Program.compile o source = .ok p →
      p.expr.subtermsWithin (3 * 64 * 64) = some p.expr.subterms ∧
      ∀ context, p.expr.evalWithin p.options context (3 * 64 * 64) =
        Limited.ofResult (p.run context) := by
  constructor
  · intro tokens e h nodes hpath
    exact Nat.le_trans hpath.length_le (height_le h)
  · intro o source p h
    obtain ⟨-, -, -, -, hexpr, -⟩ := Program.compile_eq_ok_iff.1 h
    have hheight : p.expr.height ≤ 3 * 64 * 64 := height_le hexpr
    exact ⟨Expr.subtermsWithin_eq hheight, fun context => Expr.evalWithin_eq hheight⟩

/-- A chain of accesses in a chain of operators. -/
theorem Parsing.depth_bounded_chain :
    ∃ p, Program.compile .empty "1 + xs[0].a" = .ok p ∧
      (∀ nodes, p.expr.Path nodes → nodes.length ≤ 3 * 64 * 64) ∧
      p.expr.subtermsWithin (3 * 64 * 64) = some p.expr.subterms ∧
      ∀ context, p.expr.evalWithin p.options context (3 * 64 * 64) =
        Limited.ofResult (p.run context) := by
  obtain ⟨p, hp⟩ : Compiles .empty "1 + xs[0].a" := compiles_of_isOk (by decide +kernel)
  obtain ⟨-, -, -, -, hexpr, -⟩ := Program.compile_eq_ok_iff.1 hp
  exact ⟨p, hp, depth_bounded.1 _ _ hexpr, depth_bounded.2 _ _ p hp⟩

end JsonTemplate
