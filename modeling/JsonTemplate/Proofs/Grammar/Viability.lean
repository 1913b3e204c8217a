import JsonTemplate.Proofs.Grammar.Soundness

/-! Where the parser gives up, what it has read so far can be gone on with: some phrase of the
nonterminal starts with the tokens consumed. Each parser gives up with one of its parts, and the
phrase is closed behind the one that this part can be gone on to. -/

namespace JsonTemplate

open Token (Kind)

namespace Grammar

variable {n : Nonterminal} {r operand : Rank} {k : Kind} {ts us : List Kind} {e : Expr}

/-- The tokens are the start of a phrase. -/
def Extendable (n : Nonterminal) (ts : List Kind) : Prop := ∃ us t, Phrase n (ts ++ us) t

theorem Phrase.extendable {t : n.Tree} (h : Phrase n ts t) : Extendable n ts :=
  ⟨[], t, by rwa [List.append_nil]⟩

/-- The shortest phrase of each rank. -/
theorem phrase_nil (r : Rank) : Phrase (.expr r) [.keyword .nil] (.nil default) := by
  have hfactor : Phrase (.expr .unary) [.keyword .nil] (.nil default) :=
    .tighter .unary (.tighter .access (.literal (.nil default)))
  have hcomparison : Phrase (.expr .comparison) [.keyword .nil] (.nil default) :=
    .tighter .comparison (.tighter .sum (.tighter .product hfactor))
  have hcoalesce : Phrase (.expr .coalesce) [.keyword .nil] (.nil default) :=
    .tighter .coalesce (.tighter .or (.tighter .and hcomparison))
  cases r with
  | conditional => exact .tighter .conditional hcoalesce
  | coalesce => exact hcoalesce
  | or => exact .tighter .or (.tighter .and hcomparison)
  | and => exact .tighter .and hcomparison
  | comparison => exact hcomparison
  | sum => exact .tighter .sum (.tighter .product hfactor)
  | product => exact .tighter .product hfactor
  | unary => exact hfactor
  | access => exact .tighter .access (.literal (.nil default))
  | primary => exact .literal (.nil default)

theorem extendable_nil (r : Rank) : Extendable (.expr r) [] := ⟨_, _, phrase_nil r⟩

theorem extendable_entry_nil : Extendable .entry [] :=
  ⟨_, _, .entry (.string "") (phrase_nil .conditional)⟩

theorem Extendable.tighter (h : Extendable (.expr operand) ts) (hr : Tighter r operand) :
    Extendable (.expr r) ts := by
  obtain ⟨us, e, he⟩ := h
  exact ⟨us, e, .tighter hr he⟩

/-! ### Operators -/

theorem Extendable.chained {node : Span → Expr → Expr → Expr} (hop : ChainOperator r k node)
    (hr : Tighter r operand) (hl : Phrase (.expr r) ts e) (h : Extendable (.expr operand) us) :
    Extendable (.expr r) (ts ++ k :: us) := by
  obtain ⟨vs, right, hright⟩ := h
  exact ⟨vs, _, by simpa using Phrase.chained default hop hr hl hright⟩

theorem Extendable.compared {op : BinaryOp} (hop : ComparisonOperator k op)
    (hl : Phrase (.expr .sum) ts e) (h : Extendable (.expr .sum) us) :
    Extendable (.expr .comparison) (ts ++ k :: us) := by
  obtain ⟨vs, right, hright⟩ := h
  exact ⟨vs, _, by simpa using Phrase.compared default hop hl hright⟩

theorem Extendable.prefixed {op : UnaryOp} (hop : PrefixOperator k op)
    (h : Extendable (.expr .unary) us) : Extendable (.expr .unary) (k :: us) := by
  obtain ⟨vs, inner, hinner⟩ := h
  exact ⟨vs, _, .prefixed default hop hinner⟩

theorem extendable_dot (h : Phrase (.expr .access) ts e) :
    Extendable (.expr .access) (ts ++ [.symbol .dot]) :=
  ⟨[.identifier ""], _, by
    simpa using Phrase.member default ⟨"", default⟩ h (.identifier "")⟩

theorem Extendable.index (ho : Phrase (.expr .access) ts e)
    (h : Extendable (.expr .conditional) us) :
    Extendable (.expr .access) (ts ++ .symbol .leftBracket :: us) := by
  obtain ⟨vs, place, hplace⟩ := h
  exact ⟨vs ++ [.symbol .rightBracket], _, by simpa using Phrase.index default ho hplace⟩

theorem Extendable.yes (hc : Phrase (.expr .coalesce) ts e)
    (h : Extendable (.expr .conditional) us) :
    Extendable (.expr .conditional) (ts ++ .symbol .question :: us) := by
  obtain ⟨vs, yes, hyes⟩ := h
  exact ⟨vs ++ [.symbol .colon, .keyword .nil], _, by
    simpa using Phrase.conditional default hc hyes (phrase_nil _)⟩

theorem Extendable.no {yes : Expr} {vs : List Kind} (hc : Phrase (.expr .coalesce) ts e)
    (hyes : Phrase (.expr .conditional) us yes) (h : Extendable (.expr .conditional) vs) :
    Extendable (.expr .conditional) (ts ++ .symbol .question :: us ++ .symbol .colon :: vs) := by
  obtain ⟨ws, no, hno⟩ := h
  exact ⟨ws, _, by simpa using Phrase.conditional default hc hyes hno⟩

/-! ### Lists and what encloses them -/

theorem Extendable.lastItem (h : Extendable (.expr .conditional) ts) : Extendable .items ts := by
  obtain ⟨us, e, he⟩ := h
  exact ⟨us, _, .lastItem he⟩

theorem Extendable.moreItems (he : Phrase (.expr .conditional) ts e) (h : Extendable .items us) :
    Extendable .items (ts ++ .symbol .comma :: us) := by
  obtain ⟨vs, items, hitems⟩ := h
  exact ⟨vs, _, by simpa using Phrase.moreItems he hitems⟩

theorem extendable_key {key : String} (h : EntryKey k key) : Extendable .entry [k] :=
  ⟨_, _, .entry h (phrase_nil .conditional)⟩

theorem Extendable.value {key : String} (hkey : EntryKey k key)
    (h : Extendable (.expr .conditional) ts) : Extendable .entry (k :: .symbol .colon :: ts) := by
  obtain ⟨us, e, he⟩ := h
  exact ⟨us, _, .entry hkey he⟩

theorem Extendable.lastEntry (h : Extendable .entry ts) : Extendable .entries ts := by
  obtain ⟨us, e, he⟩ := h
  exact ⟨us, _, .lastEntry he⟩

theorem Extendable.moreEntries {entry : String × Expr} (he : Phrase .entry ts entry)
    (h : Extendable .entries us) : Extendable .entries (ts ++ .symbol .comma :: us) := by
  obtain ⟨vs, entries, hentries⟩ := h
  exact ⟨vs, _, by simpa using Phrase.moreEntries he hentries⟩

theorem Extendable.array (h : Extendable .items ts) :
    Extendable (.expr .primary) (.symbol .leftBracket :: ts) := by
  obtain ⟨us, items, hitems⟩ := h
  exact ⟨us ++ [.symbol .rightBracket], _, by simpa using Phrase.array default hitems⟩

theorem Extendable.map (h : Extendable .entries ts) :
    Extendable (.expr .primary) (.symbol .leftBrace :: ts) := by
  obtain ⟨us, entries, hentries⟩ := h
  exact ⟨us ++ [.symbol .rightBrace], _, by simpa using Phrase.map default hentries⟩

theorem Extendable.paren (h : Extendable (.expr .conditional) ts) :
    Extendable (.expr .primary) (.symbol .leftParen :: ts) := by
  obtain ⟨us, inner, hinner⟩ := h
  exact ⟨us ++ [.symbol .rightParen], _, by simpa using Phrase.paren default hinner⟩

theorem Extendable.call (name : String) (h : Extendable .items ts) :
    Extendable (.expr .primary) (.identifier name :: .symbol .leftParen :: ts) := by
  obtain ⟨us, arguments, harguments⟩ := h
  exact ⟨us ++ [.symbol .rightParen], _, by
    simpa using Phrase.call default ⟨name, default⟩ harguments⟩

end Grammar

namespace Parser

open Grammar
open ParserState (Ended Consumes)

variable {α β : Type} {s s' t : ParserState} {good good' : List Kind → Prop}

/-! ### Where parsers give up -/

/-- The last fault is that the nesting is too deep, or it is at the next token, behind good ones. -/
inductive GivesUp (good : List Kind → Prop) (s s' : ParserState) : Prop where
  | tooDeep {span : Span} : s'.faults.getLast? = some ⟨.tooDeep, span⟩ → GivesUp good s s'
  | behind {fault : Fault} {ts : List Token} : s'.faults.getLast? = some ⟨fault, s'.here⟩ →
    Consumes s ts s' → good (ts.map Token.kind) → GivesUp good s s'

theorem givesUp_tooDeep (good : List Kind → Prop) (s t : ParserState) :
    GivesUp good s (t.report .tooDeep) :=
  .tooDeep (by rw [ParserState.report, List.getLast?_concat])

theorem givesUp_report (hs : s.Ended) (hgood : good []) (fault : Fault) :
    GivesUp good s (s.report fault) := by
  have hc : Consumes s [] (s.report fault) := ⟨rfl, hs⟩
  exact .behind (by rw [ParserState.report, List.getLast?_concat]; rfl) hc hgood

/-- What was consumed in front goes before the good tokens. -/
theorem GivesUp.after {ts : List Token} (hc : Consumes s ts t) (h : GivesUp good t s')
    (hgood : ∀ us, good us → good' (ts.map Token.kind ++ us)) : GivesUp good' s s' := by
  cases h with
  | tooDeep hfault => exact .tooDeep hfault
  | behind hfault hus hus' =>
    refine .behind hfault (hc.trans hus) ?_
    rw [List.map_append]
    exact hgood _ hus'

theorem GivesUp.mono (h : GivesUp good s s') (hgood : ∀ us, good us → good' us) :
    GivesUp good' s s' := by
  cases h with
  | tooDeep hfault => exact .tooDeep hfault
  | behind hfault hus hus' => exact .behind hfault hus (hgood _ hus')

theorem GivesUp.withDepth (h : GivesUp good s s') (depth : Nat) :
    GivesUp good s { s' with depth := depth } := by
  cases h with
  | tooDeep hfault => exact .tooDeep hfault
  | behind hfault hus hus' => exact .behind hfault (hus.withDepth depth) hus'

theorem GivesUp.fromDepth {depth : Nat} (h : GivesUp good { s with depth := depth } s') :
    GivesUp good s s' := by
  cases h with
  | tooDeep hfault => exact .tooDeep hfault
  | behind hfault hus hus' => exact .behind hfault hus.fromDepth hus'

/-- Where the parser fails, it gives up behind good tokens. -/
def Fails (p : Parser α) (good : List Kind → Prop) : Prop :=
  ∀ ⦃s s' : ParserState⦄, s.Ended → p s = (none, s') → GivesUp good s s'

theorem Fails.mono {p : Parser α} (h : Fails p good) (hgood : ∀ us, good us → good' us) :
    Fails p good' := fun _ _ hs hrun => (h hs hrun).mono hgood

/-- Either the first parser gives up, or the second one behind what the first one reads. -/
theorem Fails.bind {p : Parser α} {f : α → Parser β} {one : List Token → α → Prop}
    (h : Fails p good) (hp : Reads p one)
    (hf : ∀ {ts a}, one ts a → Fails (f a) fun us => good (ts.map Token.kind ++ us)) :
    Fails (p >>= f) good := by
  intro s s' hs hrun
  rcases bind_eq_none.1 hrun with hnone | ⟨a, t, hsome, hrest⟩
  · exact h hs hnone
  · obtain ⟨ts, hts, ha⟩ := hp hs hsome
    exact (hf ha hts.ended hrest).after hts fun us hus => hus

theorem fails_pure (a : α) (good : List Kind → Prop) : Fails (pure a) good := by
  rintro s s' - ⟨⟩

theorem enter_eq_none (h : enter s = (none, s')) : s' = s.report .tooDeep := by
  unfold enter at h
  split at h <;> cases h
  rfl

theorem expect_eq_none {symbol : Symbol} (h : expect symbol s = (none, s')) :
    s' = s.report (.expectedToken (.symbol symbol) s.kind) := by
  unfold expect at h
  split at h <;> cases h
  rfl

theorem eat_ne_none {symbol : Symbol} : eat symbol s ≠ (none, s') := by
  unfold eat
  split <;> nofun

/-- A symbol that has to come next, and what is read behind it. -/
theorem Fails.expect {f : Unit → Parser α} {symbol : Symbol} (hgood : good [])
    (h : Fails (f ()) fun us => good (.symbol symbol :: us)) :
    Fails (Parser.expect symbol >>= f) good := by
  intro s s' hs hrun
  rcases bind_eq_none.1 hrun with hnone | ⟨_, t, hsome, hrest⟩
  · rw [expect_eq_none hnone]
    exact givesUp_report hs hgood _
  · obtain ⟨hc, -⟩ := consumes_expect hs hsome
    exact (h hc.ended hrest).after hc fun us hus => hus

theorem Fails.restoring {p : Parser α} (h : Fails p good) : Fails (restoring p) good := by
  intro s s' hs hrun
  obtain ⟨t, ht, rfl⟩ := restoring_eq.1 hrun
  exact (h hs ht).withDepth _

theorem Fails.leaving {p : Parser α} (h : Fails p good) : Fails (leaving p) good := by
  intro s s' hs hrun
  obtain ⟨t, ht, rfl⟩ := leaving_eq.1 hrun
  exact (h hs ht).withDepth _

/-- One more level is taken up, or the nesting is too deep. -/
theorem givesUp_entered {p : Parser α} (hrun : (do enter; p) s = (none, s'))
    (h : p { s with depth := s.depth + 1 } = (none, s') →
      GivesUp good { s with depth := s.depth + 1 } s') : GivesUp good s s' := by
  rcases bind_eq_none.1 hrun with hdeep | ⟨_, t, henter, hp⟩
  · rw [enter_eq_none hdeep]
    exact givesUp_tooDeep good s s
  · obtain ⟨-, rfl⟩ := enter_eq_some.1 henter
    exact (h hp).fromDepth

theorem Fails.entered {p : Parser α} (h : Fails p good) : Fails (do enter; p) good :=
  fun _ _ hs hrun => givesUp_entered hrun fun hp => h (hs.withDepth _) hp

theorem Fails.nested {p : Parser α} (h : Fails p good) : Fails (nested p) good :=
  h.leaving.entered

theorem fails_tooDeep (good : List Kind → Prop) : Fails (fail .tooDeep : Parser α) good := by
  rintro s s' - ⟨⟩
  exact givesUp_tooDeep good s s

/-! ### Operators -/

section Operators
variable {p : Parser Expr} {r operand : Rank}

/-- What a chain has read so far is a phrase, with which the right operand goes on. -/
theorem fails_chainFrom (hr : Tighter r operand) (hp : Reads p (Spelled (.expr operand)))
    (hf : Fails p (Extendable (.expr operand))) (rounds : Nat) {ts : List Kind} {left : Expr}
    (hl : Phrase (.expr r) ts left) :
    Fails (chainFrom (levelOf r) p rounds left) fun us => Extendable (.expr r) (ts ++ us) := by
  induction rounds generalizing ts left with
  | zero => exact fails_tooDeep _
  | succ rounds ih =>
    intro s s' hs h
    cases hj : levelOf r s.kind with
    | none =>
      rw [chainFrom_none hj] at h
      cases h
    | some join =>
      obtain ⟨node, hop, rfl⟩ := levelOf_eq_some.1 hj
      have hk := hs.consumes_next hop.ne_eof
      rw [chainFrom_some hj] at h
      have hright := hf.mono fun us hus => hus.chained hop hr hl
      refine ((hright.bind hp fun {us right} hu => ?_).entered hk.ended h).after hk
        fun us hus => hus
      have hnode := Phrase.chained (left.span.merge right.span) hop hr hl hu.phrase
      simpa using ih hnode

theorem Fails.chain (hr : Tighter r operand) (hp : Reads p (Spelled (.expr operand)))
    (hf : Fails p (Extendable (.expr operand))) :
    Fails (Parser.chain (levelOf r) p) (Extendable (.expr r)) :=
  Fails.restoring <| (hf.mono fun _ hus => hus.tighter hr).bind hp fun hl =>
    fails_chainFrom hr hp hf _ (.tighter hr hl.phrase)

theorem Fails.comparison (hp : Reads p (Spelled (.expr .sum)))
    (hf : Fails p (Extendable (.expr .sum))) :
    Fails (Parser.comparison p) (Extendable (.expr .comparison)) := by
  refine (hf.mono fun _ hus => hus.tighter .comparison).bind hp fun {ts left} hl => ?_
  intro s s' hs h
  rw [kind_bind] at h
  cases hop : comparison? s.kind with
  | none =>
    rw [hop] at h
    cases h
  | some op =>
    simp only [hop, advance_bind] at h
    have hop := comparison?_eq_some.1 hop
    have hk := hs.consumes_next hop.ne_eof
    have hright := hf.mono fun us hus => hus.compared hop hl.phrase
    refine ((hright.bind hp fun {us right} hu => ?_) hk.ended h).after hk fun us hus => hus
    intro t t' ht hrun
    rw [kind_bind] at hrun
    cases hnext : comparison? t.kind with
    | none =>
      rw [hnext] at hrun
      cases hrun
    | some next =>
      rw [hnext] at hrun
      cases hrun
      have hnode := Phrase.compared default hop hl.phrase hu.phrase
      refine givesUp_report ht ?_ _
      simpa using hnode.extendable

theorem Fails.prefixed (hf : Fails p (Extendable (.expr .access))) (rounds : Nat) :
    Fails (Parser.prefixed p rounds) (Extendable (.expr .unary)) := by
  induction rounds with
  | zero => exact fails_tooDeep _
  | succ rounds ih =>
    intro s s' hs h
    cases hop : prefixOp? s.kind with
    | none =>
      rw [prefixed_none hop] at h
      exact (hf hs h).mono fun us hus => hus.tighter .unary
    | some op =>
      rw [prefixed_some hop] at h
      have hop := prefixOp?_eq_some.1 hop
      have hk := hs.consumes_next hop.ne_eof
      rcases bind_eq_none.1 h with hinner | ⟨e, t, -, hpure⟩
      · exact (ih.nested hk.ended hinner).after hk fun us hus => hus.prefixed hop
      · cases hpure

end Operators

/-! ### Lists and primary expressions -/

section Items
variable {item : Parser α} {one : List Token → α → Prop}

theorem fails_itemsFrom (hitem : Reads item one) {goodItem : List Kind → Prop}
    (h : Fails item goodItem) (close : Symbol) (hnil : good [])
    (hlast : ∀ {us}, goodItem us → good us)
    (hmore : ∀ {ts a us}, one ts a → good us →
      good (ts.map Token.kind ++ .symbol .comma :: us)) (rounds : Nat) :
    Fails (itemsFrom item close rounds) good := by
  induction rounds with
  | zero =>
    rintro s s' hs ⟨⟩
    exact givesUp_report hs hnil _
  | succ rounds ih =>
    intro s s' hs hrun
    rw [itemsFrom, kind_bind] at hrun
    by_cases hclose : s.kind = .symbol close
    · rw [if_pos hclose] at hrun
      cases hrun
    rw [if_neg hclose] at hrun
    refine (h.mono fun us => hlast).bind hitem (fun {ts a} ha => ?_) hs hrun
    intro t t' ht hrest
    rcases bind_eq_none.1 hrest with hnone | ⟨comma, u, hcomma, hrest⟩
    · exact absurd hnone eat_ne_none
    cases comma with
    | false => cases hrest
    | true =>
      obtain ⟨hk, rfl⟩ := eat_eq_true.1 hcomma
      have hc := consumes_symbol ht hk
      rcases bind_eq_none.1 hrest with hothers | ⟨others, v, -, hpure⟩
      · exact (ih hc.ended hothers).after hc fun us hus => hmore ha hus
      · cases hpure

end Items

theorem fails_key : Fails key (Extendable .entry) := by
  intro s s' hs h
  rw [key, kind_bind] at h
  cases hk : keyText? s.kind with
  | none =>
    rw [hk] at h
    cases h
    exact givesUp_report hs extendable_entry_nil _
  | some text =>
    rw [hk] at h
    cases h

theorem reads_fieldName :
    Reads fieldName fun ts field => ∃ k span, ts = [⟨k, span⟩] ∧ FieldName k field.text := by
  intro s s' field hs h
  obtain ⟨hname, -, rfl⟩ := fieldName_eq_some.1 h
  exact ⟨_, hs.consumes_next hname.ne_eof, s.kind, s.here, rfl, hname⟩

theorem fails_fieldName (hgood : good []) : Fails fieldName good := by
  intro s s' hs h
  rw [fieldName, kind_bind] at h
  cases hk : fieldText? s.kind with
  | none =>
    rw [hk] at h
    cases h
    exact givesUp_report hs hgood _
  | some text =>
    rw [hk] at h
    cases h

/-- What stands in front of a closing symbol. It may be all of what is enclosed. -/
theorem fails_enclosed {inner : Parser α} {one : List Token → α → Prop} (hinner : Reads inner one)
    (h : Fails inner good) (hone : ∀ {ts a}, one ts a → good (ts.map Token.kind)) (start : Span)
    (close : Symbol) (node : Span → α → Expr) :
    Fails (do let a ← inner
              Parser.expect close
              pure (node (start.merge (← previous)) a) : Parser Expr) good := by
  refine h.bind hinner fun {ts a} ha => .expect (by simpa using hone ha) ?_
  rintro s s' - ⟨⟩

section Expressions
variable {p : Parser Expr} (hp : Reads p (Spelled (.expr .conditional)))
  (hf : Fails p (Extendable (.expr .conditional)))
include hp hf

theorem fails_entry : Fails (entry p) (Extendable .entry) := by
  intro s s' hs h
  rcases bind_eq_none.1 h with hkey | ⟨text, t, htext, hrest⟩
  · exact fails_key hs hkey
  · obtain ⟨hk, hkey⟩ := reads_key hs htext
    have hvalue := hf.mono fun us hus => hus.value hkey
    refine (Fails.expect (extendable_key hkey) ?_ hk.ended hrest).after hk fun us hus => hus
    exact hvalue.bind hp fun _ => fails_pure _ _

theorem fails_items (close : Symbol) : Fails (items p close) (Extendable .items) :=
  fun _ _ hs h => fails_itemsFrom hp hf close Phrase.noItems.extendable Extendable.lastItem
    (fun he => Extendable.moreItems he.phrase) _ hs h

theorem fails_entries (close : Symbol) : Fails (items (entry p) close) (Extendable .entries) :=
  fun _ _ hs h => fails_itemsFrom (reads_entry hp) (fails_entry hp hf) close
    Phrase.noEntries.extendable Extendable.lastEntry (fun he => Extendable.moreEntries he.phrase)
    _ hs h

theorem Fails.primary : Fails (Parser.primary p) (Extendable (.expr .primary)) := by
  intro s s' hs h
  by_cases harray : s.kind = .symbol .leftBracket
  · rw [primary_array harray] at h
    have hitems := (fails_items hp hf .rightBracket).mono fun us hus => hus.array
    exact (fails_enclosed (reads_items hp _) hitems (fun ht => ht.phrase.extendable.array) _ _ _
      (consumes_symbol hs harray).ended h).after (consumes_symbol hs harray) fun us hus => hus
  by_cases hmap : s.kind = .symbol .leftBrace
  · rw [primary_map hmap] at h
    have hentries := (fails_entries hp hf .rightBrace).mono fun us hus => hus.map
    exact (fails_enclosed (reads_entries hp _) hentries (fun ht => ht.phrase.extendable.map) _ _ _
      (consumes_symbol hs hmap).ended h).after (consumes_symbol hs hmap) fun us hus => hus
  by_cases hparen : s.kind = .symbol .leftParen
  · rw [primary_paren hparen] at h
    have hinner := hf.mono fun us hus => hus.paren
    exact (fails_enclosed hp hinner (fun ht => ht.phrase.extendable.paren) _ _ _
      (consumes_symbol hs hparen).ended h).after (consumes_symbol hs hparen) fun us hus => hus
  by_cases hname : ∃ name, s.kind = .identifier name
  · obtain ⟨name, hname⟩ := hname
    have hk := consumes_kind hs hname nofun
    by_cases hcall : s.following = .symbol .leftParen
    · rw [primary_call hname hcall, call, advance_bind] at h
      have hitems := (fails_items hp hf .rightParen).mono fun us hus => hus.call name
      refine (Fails.expect ?_ ?_ hk.ended h).after hk fun us hus => hus
      · exact (Phrase.identifier default name).extendable
      · exact fails_enclosed (reads_items hp _) hitems
          (fun ht => ht.phrase.extendable.call name) _ _ fun span arguments =>
            .call span ⟨name, s.here⟩ arguments
    · rw [primary_identifier hname hcall] at h
      cases h
  cases hl : literal? s.here s.kind with
  | some found =>
    rw [primary_literal hl] at h
    cases h
  | none =>
    rw [primary_other harray hmap hparen (fun name hn => hname ⟨name, hn⟩) hl] at h
    cases h
    exact givesUp_report hs (extendable_nil _) _

/-- What stands in front of the next access is a phrase, with which the access goes on. -/
theorem fails_accessFrom (rounds : Nat) {ts : List Kind} {object : Expr}
    (ho : Phrase (.expr .access) ts object) :
    Fails (Parser.accessFrom p rounds object) fun us => Extendable (.expr .access) (ts ++ us) := by
  induction rounds generalizing ts object with
  | zero => exact fails_tooDeep _
  | succ rounds ih =>
    intro s s' hs h
    by_cases hdot : s.kind = .symbol .dot
    · rw [accessFrom_dot hdot] at h
      refine givesUp_entered h fun h => ?_
      have hk := consumes_symbol (hs.withDepth (s.depth + 1)) hdot
      rw [advance_bind] at h
      refine (Fails.bind (fails_fieldName ?_) reads_fieldName (fun {us field} hfield => ?_)
        hk.ended h).after hk fun us hus => hus
      · exact extendable_dot ho
      · obtain ⟨k, span, rfl, hname⟩ := hfield
        simpa using ih (.member (object.span.merge field.span) field ho hname)
    by_cases hbracket : s.kind = .symbol .leftBracket
    · rw [accessFrom_bracket hbracket] at h
      refine givesUp_entered h fun h => ?_
      have hk := consumes_symbol (hs.withDepth (s.depth + 1)) hbracket
      rw [advance_bind] at h
      have hplace := hf.mono fun us hus => hus.index ho
      refine (hplace.bind hp (fun {us place} hu => .expect ?_ fun t t' ht hrun => ?_)
        hk.ended h).after hk fun us hus => hus
      · simpa using hu.phrase.extendable.index ho
      · rw [previous_bind] at hrun
        have hnode := Phrase.index (object.span.merge t.previous) ho hu.phrase
        refine (ih hnode ht hrun).mono fun vs hvs => ?_
        simpa using hvs
    · rw [accessFrom_other hdot hbracket] at h
      cases h

theorem Fails.access : Fails (Parser.access p (Parser.primary p)) (Extendable (.expr .access)) :=
  Fails.restoring <| ((Fails.primary hp hf).mono fun _ hus => hus.tighter .access).bind
    (Reads.primary hp) fun ho => fails_accessFrom hp hf _ (.tighter .access ho.phrase)

theorem Fails.operators : Fails (ofRank p .coalesce) (Extendable (.expr .coalesce)) := by
  have hfactor : Fails (factor p) (Extendable (.expr .unary)) := (Fails.access hp hf).prefixed _
  have hproduct : Fails (product p) (Extendable (.expr .product)) :=
    .chain .product (Reads.factor hp) hfactor
  have hsum : Fails (sum p) (Extendable (.expr .sum)) :=
    .chain .sum ((Reads.factor hp).chain .product) hproduct
  have hreads := (Reads.sum hp).comparison
  exact .chain .coalesce ((hreads.chain .and).chain .or) <|
    .chain .or (hreads.chain .and) <| .chain .and hreads <| .comparison (Reads.sum hp) hsum

theorem Fails.ternary : Fails (ofRank p .conditional) (Extendable (.expr .conditional)) := by
  have hcondition := (Fails.operators hp hf).mono fun us hus => hus.tighter .conditional
  refine hcondition.bind (Reads.operators hp) fun {ts condition} hc => ?_
  intro s s' hs h
  rcases bind_eq_none.1 h with hnone | ⟨asked, t, hasked, hbranches⟩
  · exact absurd hnone eat_ne_none
  cases asked with
  | false => cases hbranches
  | true =>
    obtain ⟨hk, rfl⟩ := eat_eq_true.1 hasked
    have hq := consumes_symbol hs hk
    have hyes := hf.mono fun us hus => hus.yes hc.phrase
    refine (hyes.bind hp (fun {us yes} hu => .expect ?_ ?_) hq.ended hbranches).after hq
      fun us hus => hus
    · simpa using hu.phrase.extendable.yes hc.phrase
    · have hno := hf.mono fun vs hvs => hvs.no hc.phrase hu.phrase
      refine Fails.mono (hno.bind hp fun _ => fails_pure _ _) fun vs hvs => ?_
      simpa using hvs

end Expressions

theorem fails_expressionWithin (levels : Nat) :
    Fails (expressionWithin levels) (Extendable (.expr .conditional)) := by
  induction levels with
  | zero => exact fails_tooDeep _
  | succ levels ih =>
    rw [expressionWithin_succ]
    exact (Fails.ternary (reads_expressionWithin levels) ih).nested

end Parser

end JsonTemplate
