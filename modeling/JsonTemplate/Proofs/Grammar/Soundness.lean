import JsonTemplate.Proofs.Grammar.Reading
import JsonTemplate.Proofs.Grammar.Spelling

/-! What the parser reads is a phrase of the grammar, with the spans of its tokens. Each combinator
reads phrases if its parts do, and the expressions inside are read by the same parser with a level
less. -/

namespace JsonTemplate.Parser

open Token (Kind)
open Grammar
open ParserState (Ended Consumes)

variable {s s' : ParserState}

/-- The results of a parser stand in a relation to the tokens that it consumes. -/
def Reads {α : Type} (p : Parser α) (result : List Token → α → Prop) : Prop :=
  ∀ ⦃s s' : ParserState⦄ ⦃a : α⦄, s.Ended → p s = (some a, s') →
    ∃ ts, Consumes s ts s' ∧ result ts a

theorem consumes_kind {k : Kind} (hs : s.Ended) (h : s.kind = k) (hk : k ≠ .eof) :
    Consumes s [⟨k, s.here⟩] s.next := by
  subst h
  exact hs.consumes_next hk

theorem consumes_symbol {symbol : Symbol} (hs : s.Ended) (h : s.kind = .symbol symbol) :
    Consumes s [⟨.symbol symbol, s.here⟩] s.next :=
  consumes_kind hs h nofun

theorem consumes_expect {symbol : Symbol} {u : Unit} (hs : s.Ended)
    (h : expect symbol s = (some u, s')) :
    Consumes s [⟨.symbol symbol, s.here⟩] s' ∧ s'.previous = s.here := by
  obtain ⟨hk, rfl⟩ := expect_eq_some.1 h
  exact ⟨consumes_symbol hs hk, hs.previous_next⟩

section Restoring
variable {α : Type} {p : Parser α} {result : List Token → α → Prop}

theorem Reads.restoring (h : Reads p result) : Reads (Parser.restoring p) result := by
  intro s s' t hs hrun
  obtain ⟨s₁, hp, rfl⟩ := restoring_eq.1 hrun
  obtain ⟨ts, hc, ht⟩ := h hs hp
  exact ⟨ts, hc.withDepth s.depth, ht⟩

theorem Reads.nested (h : Reads p result) : Reads (Parser.nested p) result := by
  intro s s' t hs hrun
  obtain ⟨-, s₁, hp, rfl⟩ := nested_eq_some.1 hrun
  obtain ⟨ts, hc, ht⟩ := h (hs.withDepth _) hp
  exact ⟨ts, (hc.withDepth _).fromDepth, ht⟩

end Restoring

/-! ### Operators -/

/-- What a chain has read so far is a phrase, and so is what it has read in the end. -/
theorem reads_chainFrom {r operand : Rank} {p : Parser Expr} (hr : Tighter r operand)
    (hp : Reads p (Spelled (.expr operand))) (rounds : Nat) {ts : List Token} {left e : Expr}
    (hl : Spelled (.expr r) ts left) (hs : s.Ended)
    (h : chainFrom (levelOf r) p rounds left s = (some e, s')) :
    ∃ us, Consumes s us s' ∧ Spelled (.expr r) (ts ++ us) e := by
  induction rounds generalizing ts left s with
  | zero => cases h
  | succ rounds ih =>
    cases hj : levelOf r s.kind with
    | none =>
      rw [chainFrom_none hj] at h
      cases h
      exact ⟨[], hs.consumes_nil, by rwa [List.append_nil]⟩
    | some join =>
      obtain ⟨node, hop, rfl⟩ := levelOf_eq_some.1 hj
      have hk := hs.consumes_next hop.ne_eof
      rw [chainFrom_some hj] at h
      obtain ⟨_, s₁, hd, h⟩ := bind_eq_some.1 h
      obtain ⟨-, rfl⟩ := enter_eq_some.1 hd
      obtain ⟨right, s₂, hright, h⟩ := bind_eq_some.1 h
      obtain ⟨us, hus, hu⟩ := hp (hk.ended.withDepth _) hright
      have hnode := Spelled.chained s.here hop hr hl hu
      obtain ⟨vs, hvs, hv⟩ := ih hnode hus.ended h
      refine ⟨⟨s.kind, s.here⟩ :: us ++ vs, (hk.trans hus.fromDepth).trans hvs, ?_⟩
      rwa [List.append_assoc] at hv

theorem Reads.chain {r operand : Rank} {p : Parser Expr} (hr : Tighter r operand)
    (hp : Reads p (Spelled (.expr operand))) :
    Reads (Parser.chain (levelOf r) p) (Spelled (.expr r)) := by
  apply Reads.restoring
  intro s s' t hs h
  obtain ⟨left, s₁, hleft, h⟩ := bind_eq_some.1 h
  obtain ⟨ts, hts, hl⟩ := hp hs hleft
  obtain ⟨us, hus, ht⟩ := reads_chainFrom hr hp _ (.tighter hr hl) hts.ended h
  exact ⟨ts ++ us, hts.trans hus, ht⟩

theorem Reads.comparison {p : Parser Expr} (hp : Reads p (Spelled (.expr .sum))) :
    Reads (Parser.comparison p) (Spelled (.expr .comparison)) := by
  intro s s' t hs h
  obtain ⟨left, s₁, hleft, h⟩ := bind_eq_some.1 h
  obtain ⟨ts, hts, hl⟩ := hp hs hleft
  rw [kind_bind] at h
  cases hop : comparison? s₁.kind with
  | none =>
    rw [hop] at h
    cases h
    exact ⟨ts, hts, .tighter .comparison hl⟩
  | some op =>
    simp only [hop, advance_bind] at h
    have hop := comparison?_eq_some.1 hop
    have hk := hts.ended.consumes_next hop.ne_eof
    obtain ⟨right, s₂, hright, h⟩ := bind_eq_some.1 h
    obtain ⟨us, hus, hu⟩ := hp hk.ended hright
    rw [kind_bind] at h
    cases hnext : comparison? s₂.kind with
    | none =>
      rw [hnext] at h
      cases h
      exact ⟨_, hts.trans (hk.trans hus), .compared s₁.here hop hl hu⟩
    | some next =>
      rw [hnext] at h
      cases h

theorem Reads.prefixed {p : Parser Expr} (hp : Reads p (Spelled (.expr .access))) (rounds : Nat) :
    Reads (Parser.prefixed p rounds) (Spelled (.expr .unary)) := by
  induction rounds with
  | zero => intro s s' a hs h; cases h
  | succ rounds ih =>
    intro s s' t hs h
    cases hop : prefixOp? s.kind with
    | none =>
      rw [prefixed_none hop] at h
      obtain ⟨ts, hts, ht⟩ := hp hs h
      exact ⟨ts, hts, .tighter .unary ht⟩
    | some op =>
      rw [prefixed_some hop] at h
      have hop := prefixOp?_eq_some.1 hop
      have hk := hs.consumes_next hop.ne_eof
      obtain ⟨e, s₁, he, h⟩ := bind_eq_some.1 h
      obtain ⟨ts, hts, ht⟩ := ih.nested hk.ended he
      cases h
      exact ⟨_, hk.trans hts, .prefixed s.here hop ht⟩

/-- What stands in front of the next access is a phrase, and so is the whole in the end. -/
theorem reads_accessFrom {p : Parser Expr} (hp : Reads p (Spelled (.expr .conditional)))
    (rounds : Nat) {ts : List Token} {object e : Expr} (ho : Spelled (.expr .access) ts object)
    (hs : s.Ended) (h : accessFrom p rounds object s = (some e, s')) :
    ∃ us, Consumes s us s' ∧ Spelled (.expr .access) (ts ++ us) e := by
  induction rounds generalizing ts object s with
  | zero => cases h
  | succ rounds ih =>
    by_cases hdot : s.kind = .symbol .dot
    · rw [accessFrom_dot hdot] at h
      obtain ⟨_, s₁, hd, h⟩ := bind_eq_some.1 h
      obtain ⟨-, rfl⟩ := enter_eq_some.1 hd
      have hk := consumes_symbol (hs.withDepth (s.depth + 1)) hdot
      rw [advance_bind] at h
      obtain ⟨field, s₂, hfield, h⟩ := bind_eq_some.1 h
      obtain ⟨hn, hspan, rfl⟩ := fieldName_eq_some.1 hfield
      have hf := hk.ended.consumes_next hn.ne_eof
      rw [← hspan] at hf
      obtain ⟨us, hus, hu⟩ := ih (.member s.here field ho hn) hf.ended h
      exact ⟨_, ((hk.trans hf).trans hus).fromDepth, by rwa [List.append_assoc] at hu⟩
    by_cases hbracket : s.kind = .symbol .leftBracket
    · rw [accessFrom_bracket hbracket] at h
      obtain ⟨_, s₁, hd, h⟩ := bind_eq_some.1 h
      obtain ⟨-, rfl⟩ := enter_eq_some.1 hd
      have hk := consumes_symbol (hs.withDepth (s.depth + 1)) hbracket
      rw [advance_bind] at h
      obtain ⟨place, s₂, hplace, h⟩ := bind_eq_some.1 h
      obtain ⟨us, hus, hu⟩ := hp hk.ended hplace
      obtain ⟨_, s₃, hclose, h⟩ := bind_eq_some.1 h
      obtain ⟨hc, hprevious⟩ := consumes_expect hus.ended hclose
      rw [previous_bind, hprevious] at h
      obtain ⟨vs, hvs, hv⟩ := ih (.index s.here _ ho hu) hc.ended h
      simp only [List.append_assoc, List.cons_append, List.nil_append] at hv
      exact ⟨_, (hk.trans (hus.trans (hc.trans hvs))).fromDepth, hv⟩
    · rw [accessFrom_other hdot hbracket] at h
      cases h
      exact ⟨[], hs.consumes_nil, by rwa [List.append_nil]⟩

theorem Reads.access {p primary : Parser Expr} (hp : Reads p (Spelled (.expr .conditional)))
    (hprimary : Reads primary (Spelled (.expr .primary))) :
    Reads (Parser.access p primary) (Spelled (.expr .access)) := by
  apply Reads.restoring
  intro s s' t hs h
  obtain ⟨object, s₁, hobject, h⟩ := bind_eq_some.1 h
  obtain ⟨ts, hts, ho⟩ := hprimary hs hobject
  obtain ⟨us, hus, ht⟩ := reads_accessFrom hp _ (.tighter .access ho) hts.ended h
  exact ⟨ts ++ us, hts.trans hus, ht⟩

/-! ### Lists and primary expressions -/

section Items
variable {α : Type} {item : Parser α} {one : List Token → α → Prop}
  {many : List Token → List α → Prop}

/-- Lists of whatever a parser of items reads, with a comma behind each item but the last. -/
theorem reads_itemsFrom (hitem : Reads item one) (close : Symbol) (hnil : many [] [])
    (hlast : ∀ {ts a}, one ts a → many ts [a])
    (hmore : ∀ (comma : Span) {ts us a as}, one ts a → many us as →
      many (ts ++ ⟨.symbol .comma, comma⟩ :: us) (a :: as))
    (rounds : Nat) : Reads (itemsFrom item close rounds) many := by
  induction rounds with
  | zero => intro s s' a hs h; cases h
  | succ rounds ih =>
    intro s s' as hs h
    rw [itemsFrom, kind_bind] at h
    by_cases hclose : s.kind = .symbol close
    · rw [if_pos hclose] at h
      cases h
      exact ⟨[], hs.consumes_nil, hnil⟩
    · rw [if_neg hclose] at h
      obtain ⟨a, s₁, ha, h⟩ := bind_eq_some.1 h
      obtain ⟨ts, hts, ht⟩ := hitem hs ha
      obtain ⟨comma, s₂, hcomma, hrest⟩ := bind_eq_some.1 h
      cases comma with
      | false =>
        obtain ⟨-, rfl⟩ := eat_eq_false.1 hcomma
        cases hrest
        exact ⟨ts, hts, hlast ht⟩
      | true =>
        obtain ⟨hk, rfl⟩ := eat_eq_true.1 hcomma
        have hc := consumes_symbol hts.ended hk
        obtain ⟨others, s₃, hothers, hpure⟩ := bind_eq_some.1 hrest
        obtain ⟨us, hus, hu⟩ := ih hc.ended hothers
        cases hpure
        exact ⟨_, hts.trans (hc.trans hus), hmore s₁.here ht hu⟩

end Items

section Primary
variable {p : Parser Expr} (hp : Reads p (Spelled (.expr .conditional)))
include hp

theorem reads_items (close : Symbol) : Reads (items p close) (Spelled .items) :=
  fun _ _ _ hs h => reads_itemsFrom hp close .noItems .lastItem .moreItems _ hs h

omit hp in
theorem reads_key {text : String} (hs : s.Ended) (h : key s = (some text, s')) :
    Consumes s [⟨s.kind, s.here⟩] s' ∧ EntryKey s.kind text := by
  rw [key, kind_bind] at h
  cases hk : keyText? s.kind with
  | none =>
    rw [hk] at h
    cases h
  | some found =>
    rw [hk] at h
    cases h
    have hkey := keyText?_eq_some.1 hk
    exact ⟨hs.consumes_next hkey.ne_eof, hkey⟩

theorem reads_entry : Reads (entry p) (Spelled .entry) := by
  intro s s' e hs h
  obtain ⟨text, s₁, htext, hrest⟩ := bind_eq_some.1 h
  obtain ⟨hk, hkey⟩ := reads_key hs htext
  obtain ⟨_, s₂, hcolon, hrest⟩ := bind_eq_some.1 hrest
  obtain ⟨hc, -⟩ := consumes_expect hk.ended hcolon
  obtain ⟨value, s₃, hvalue, hpure⟩ := bind_eq_some.1 hrest
  obtain ⟨ts, hts, ht⟩ := hp hc.ended hvalue
  cases hpure
  exact ⟨_, (hk.trans hc).trans hts, .entry s.here s₁.here hkey ht⟩

theorem reads_entries (close : Symbol) : Reads (items (entry p) close) (Spelled .entries) :=
  fun _ _ _ hs h => reads_itemsFrom (reads_entry hp) close .noEntries .lastEntry .moreEntries _ hs h

omit hp in
/-- What stands between two symbols, as arrays, maps and parentheses are read. -/
theorem reads_enclosed {α : Type} {inner : Parser α} {one : List Token → α → Prop}
    (node : Span → α → Expr) (hinner : Reads inner one) {close : Symbol} {e : Expr}
    {start : Span} (hs : s.Ended)
    (h : (do let a ← inner
             expect close
             pure (node (start.merge (← previous)) a) : Parser Expr) s = (some e, s')) :
    ∃ ts a closing, Consumes s (ts ++ [⟨.symbol close, closing⟩]) s' ∧ one ts a ∧
      e = node (start.merge closing) a := by
  obtain ⟨a, s₁, ha, hrest⟩ := bind_eq_some.1 h
  obtain ⟨ts, hts, ht⟩ := hinner hs ha
  obtain ⟨_, s₂, hclose, hpure⟩ := bind_eq_some.1 hrest
  obtain ⟨hc, hprevious⟩ := consumes_expect hts.ended hclose
  cases hpure
  exact ⟨ts, a, _, hts.trans hc, ht, by rw [hprevious]⟩

theorem Reads.primary : Reads (Parser.primary p) (Spelled (.expr .primary)) := by
  intro s s' e hs h
  by_cases harray : s.kind = .symbol .leftBracket
  · rw [primary_array harray] at h
    have hk := consumes_symbol hs harray
    obtain ⟨ts, items, closing, hts, ht, rfl⟩ :=
      reads_enclosed .array (reads_items hp _) hk.ended h
    exact ⟨_, hk.trans hts, .array s.here closing ht⟩
  by_cases hmap : s.kind = .symbol .leftBrace
  · rw [primary_map hmap] at h
    have hk := consumes_symbol hs hmap
    obtain ⟨ts, entries, closing, hts, ht, rfl⟩ :=
      reads_enclosed .map (reads_entries hp _) hk.ended h
    exact ⟨_, hk.trans hts, .map s.here closing ht⟩
  by_cases hparen : s.kind = .symbol .leftParen
  · rw [primary_paren hparen] at h
    have hk := consumes_symbol hs hparen
    obtain ⟨ts, inner, closing, hts, ht, rfl⟩ := reads_enclosed .paren hp hk.ended h
    exact ⟨_, hk.trans hts, .paren s.here closing ht⟩
  by_cases hname : ∃ name, s.kind = .identifier name
  · obtain ⟨name, hname⟩ := hname
    have hk := consumes_kind hs hname nofun
    by_cases hcall : s.following = .symbol .leftParen
    · rw [primary_call hname hcall, call, advance_bind] at h
      obtain ⟨_, s₁, hopen, hrest⟩ := bind_eq_some.1 h
      obtain ⟨ho, -⟩ := consumes_expect hk.ended hopen
      obtain ⟨ts, arguments, closing, hts, ht, rfl⟩ :=
        reads_enclosed (fun span arguments => .call span ⟨name, s.here⟩ arguments)
          (reads_items hp _) ho.ended hrest
      exact ⟨_, (hk.trans ho).trans hts, .call ⟨name, s.here⟩ _ closing ht⟩
    · rw [primary_identifier hname hcall] at h
      cases h
      exact ⟨_, hk, .identifier _ name⟩
  cases hl : literal? s.here s.kind with
  | some found =>
    rw [primary_literal hl] at h
    cases h
    have hlit := literal_of_literal? hl
    have hk := hs.consumes_next hlit.ne_eof
    rw [← span_of_literal? hl] at hk
    exact ⟨_, hk, .literal hlit⟩
  | none =>
    rw [primary_other harray hmap hparen (fun name hn => hname ⟨name, hn⟩) hl] at h
    cases h

theorem Reads.factor : Reads (Parser.factor p) (Spelled (.expr .unary)) :=
  (hp.access (Reads.primary hp)).prefixed _

theorem Reads.sum : Reads (Parser.sum p) (Spelled (.expr .sum)) :=
  (Reads.chain .product (Reads.factor hp)).chain .sum

theorem Reads.operators : Reads (Parser.ofRank p .coalesce) (Spelled (.expr .coalesce)) :=
  (((Reads.sum hp).comparison.chain .and).chain .or).chain .coalesce

theorem Reads.ternary : Reads (Parser.ofRank p .conditional) (Spelled (.expr .conditional)) := by
  intro s s' e hs h
  obtain ⟨condition, s₁, hcondition, hrest⟩ := bind_eq_some.1 h
  obtain ⟨ts, hts, hc⟩ := Reads.operators hp hs hcondition
  obtain ⟨asked, s₂, hasked, hbranches⟩ := bind_eq_some.1 hrest
  cases asked with
  | false =>
    obtain ⟨-, rfl⟩ := eat_eq_false.1 hasked
    cases hbranches
    exact ⟨ts, hts, .tighter .conditional hc⟩
  | true =>
    obtain ⟨hk, rfl⟩ := eat_eq_true.1 hasked
    have hq := consumes_symbol hts.ended hk
    obtain ⟨yes, s₃, hyes, hno⟩ := bind_eq_some.1 hbranches
    obtain ⟨us, hus, hu⟩ := hp hq.ended hyes
    obtain ⟨_, s₄, hcolon, hno⟩ := bind_eq_some.1 hno
    obtain ⟨hcl, -⟩ := consumes_expect hus.ended hcolon
    obtain ⟨no, s₅, hno, hpure⟩ := bind_eq_some.1 hno
    obtain ⟨vs, hvs, hv⟩ := hp hcl.ended hno
    cases hpure
    refine ⟨_, (((hts.trans hq).trans hus).trans hcl).trans hvs, ?_⟩
    simpa using Spelled.conditional s₁.here s₃.here hc hu hv

end Primary

/-- Expressions of any nesting are phrases. -/
theorem reads_expressionWithin (levels : Nat) :
    Reads (expressionWithin levels) (Spelled (.expr .conditional)) := by
  induction levels with
  | zero => intro s s' a hs h; cases h
  | succ levels ih =>
    rw [expressionWithin_succ]
    exact (Reads.ternary ih).nested

end JsonTemplate.Parser
