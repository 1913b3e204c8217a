import JsonTemplate.Proofs.Evaluation.Height
import JsonTemplate.Proofs.Grammar.Spelling
import JsonTemplate.Proofs.Lexing.Places

/-! Where the nodes of an expression stand. If the tokens are in order, joining the spans of its
ends gives a node the span from its first token to its last one. The expressions right inside a
node stand on tokens of their own, one behind the other, so that their spans are apart. -/

namespace JsonTemplate

/-- The inner span is part of the outer one. -/
def Span.Contains (outer inner : Span) : Prop :=
  outer.start ≤ inner.start ∧ inner.stop ≤ outer.stop

namespace Grammar

variable {ts us ms before after : List Token} {a b span : Span} {t : Token}

/-! ### Tokens in order -/

/-- The tokens end where they start or behind it, and each stands behind the tokens in front of
it. -/
structure Ordered (ts : List Token) : Prop where
  upright : ∀ t ∈ ts, t.span.start ≤ t.span.stop
  apart : ts.Pairwise fun t u => t.span.stop < u.span.start

theorem Ordered.sublist (h : Ordered ts) (hus : us.Sublist ts) : Ordered us :=
  ⟨fun t ht => h.upright t (hus.subset ht), h.apart.sublist hus⟩

theorem Ordered.left (h : Ordered (ts ++ us)) : Ordered ts :=
  h.sublist (List.sublist_append_left ts us)

theorem Ordered.right (h : Ordered (ts ++ us)) : Ordered us :=
  h.sublist (List.sublist_append_right ts us)

theorem Ordered.tail (h : Ordered (t :: ts)) : Ordered ts := h.sublist (List.sublist_cons_self t ts)

theorem Ordered.lt (h : Ordered (ts ++ us)) {u : Token} (ht : t ∈ ts) (hu : u ∈ us) :
    t.span.stop < u.span.start :=
  (List.pairwise_append.1 h.apart).2.2 t ht u hu

/-- The span goes from the first token to the last one. -/
structure Extent (ts : List Token) (span : Span) : Prop where
  start : ∃ first, ts.head? = some first ∧ first.span.start = span.start
  stop : ∃ last, ts.getLast? = some last ∧ last.span.stop = span.stop

theorem extent_singleton (t : Token) : Extent [t] t.span := ⟨⟨t, rfl, rfl⟩, ⟨t, rfl, rfl⟩⟩

/-- The span around all tokens contains each of theirs. -/
theorem Extent.contains_token (h : Extent ts span) (hts : Ordered ts) (ht : t ∈ ts) :
    span.Contains t.span := by
  constructor
  · obtain ⟨first, hfirst, hstart⟩ := h.start
    obtain ⟨rest, rfl⟩ := List.head?_eq_some_iff.1 hfirst
    rw [← hstart]
    rcases List.mem_cons.1 ht with rfl | hrest
    · exact Position.le_refl _
    · have hlt := List.rel_of_pairwise_cons hts.apart hrest
      exact Position.le_of_lt (Position.lt_of_le_of_lt (hts.upright _ List.mem_cons_self) hlt)
  · obtain ⟨last, hlast, hstop⟩ := h.stop
    obtain ⟨init, rfl⟩ := List.getLast?_eq_some_iff.1 hlast
    rw [← hstop]
    have hmem : last ∈ init ++ [last] := List.mem_append_right init (List.mem_singleton.2 rfl)
    rcases List.mem_append.1 ht with hinit | hsingle
    · have hlt := hts.lt hinit (List.mem_singleton.2 rfl)
      exact Position.le_of_lt (Position.lt_of_lt_of_le hlt (hts.upright _ hmem))
    · rw [List.mem_singleton.1 hsingle]
      exact Position.le_refl _

/-- A part of the tokens spans a part of the whole. -/
theorem Extent.contains (h : Extent ts a) (hts : Ordered ts) (hus : us ⊆ ts) (hpart : Extent us b) :
    a.Contains b := by
  obtain ⟨first, hfirst, hstart⟩ := hpart.start
  obtain ⟨last, hlast, hstop⟩ := hpart.stop
  rw [Span.Contains, ← hstart, ← hstop]
  exact ⟨(h.contains_token hts (hus (List.mem_of_mem_head? hfirst))).1,
    (h.contains_token hts (hus (List.mem_of_getLast? hlast))).2⟩

theorem Extent.upright (h : Extent ts span) (hts : Ordered ts) : span.start ≤ span.stop := by
  obtain ⟨first, hfirst, hstart⟩ := h.start
  have hmem := List.mem_of_mem_head? hfirst
  rw [← hstart]
  exact Position.le_trans (hts.upright first hmem) (h.contains_token hts hmem).2

theorem Extent.stop_lt_start (hleft : Extent ts a) (hright : Extent us b)
    (h : Ordered (ts ++ us)) : a.stop < b.start := by
  obtain ⟨last, hlast, hstop⟩ := hleft.stop
  obtain ⟨first, hfirst, hstart⟩ := hright.start
  rw [← hstop, ← hstart]
  exact h.lt (List.mem_of_getLast? hlast) (List.mem_of_mem_head? hfirst)

theorem merge_of_lt (ha : a.start ≤ a.stop) (hb : b.start ≤ b.stop) (h : a.stop < b.start) :
    a.merge b = ⟨a.start, b.stop⟩ := by
  have hstart : ¬b.start < a.start := Position.le_of_lt (Position.lt_of_le_of_lt ha h)
  have hstop : a.stop < b.stop := Position.lt_of_lt_of_le h hb
  rw [Span.merge, Position.min_def, Position.max_def, if_neg hstart, if_pos hstop]

/-- Joining what stands at both ends gives the span of the whole. -/
theorem Extent.merge (hleft : Extent ts a) (ms : List Token) (hright : Extent us b)
    (h : Ordered (ts ++ (ms ++ us))) : Extent (ts ++ (ms ++ us)) (a.merge b) := by
  have hlt : a.stop < b.start :=
    hleft.stop_lt_start hright (h.sublist ((List.sublist_append_right ms us).append_left ts))
  rw [merge_of_lt (hleft.upright h.left) (hright.upright h.right.right) hlt]
  obtain ⟨first, hfirst, hstart⟩ := hleft.start
  obtain ⟨last, hlast, hstop⟩ := hright.stop
  refine ⟨⟨first, ?_, hstart⟩, ⟨last, ?_, hstop⟩⟩
  · rw [List.head?_append, hfirst, Option.some_or]
  · rw [List.getLast?_append, List.getLast?_append, hlast, Option.some_or, Option.some_or]

/-! ### The span of a node -/

/-- What is to be shown of trees that have a span. -/
def Exact : (n : Nonterminal) → List Token → n.Tree → Prop
  | .expr _, ts, e => Ordered ts → Extent ts e.span
  | .items, _, _ | .entry, _, _ | .entries, _, _ => True

theorem ChainOperator.span_node {r : Rank} {k : Token.Kind} {node : Span → Expr → Expr → Expr}
    (h : ChainOperator r k node) (span : Span) (left right : Expr) :
    (node span left right).span = span := by
  cases h <;> rfl

theorem Spelled.exact {n : Nonterminal} {tree : n.Tree} (h : Spelled n ts tree) :
    Exact n ts tree := by
  induction h with
  | @literal k e _ => exact fun _ => extent_singleton ⟨k, e.span⟩
  | identifier span name => exact fun _ => extent_singleton ⟨_, span⟩
  | @call function opening closing ts _ _ _ =>
    exact (extent_singleton ⟨_, function.span⟩).merge (⟨_, opening⟩ :: ts)
      (extent_singleton ⟨_, closing⟩)
  | @array opening closing ts _ _ _ =>
    exact (extent_singleton ⟨_, opening⟩).merge ts (extent_singleton ⟨_, closing⟩)
  | @map opening closing ts _ _ _ =>
    exact (extent_singleton ⟨_, opening⟩).merge ts (extent_singleton ⟨_, closing⟩)
  | @paren opening closing ts _ _ _ =>
    exact (extent_singleton ⟨_, opening⟩).merge ts (extent_singleton ⟨_, closing⟩)
  | member dot field _ _ ih =>
    exact fun hts => (ih hts.left).merge [⟨_, dot⟩] (extent_singleton ⟨_, field.span⟩) hts
  | @index opening closing _ us _ _ _ _ ih _ =>
    intro hts
    rw [List.append_assoc] at hts ⊢
    exact (ih hts.left).merge (⟨_, opening⟩ :: us) (extent_singleton ⟨_, closing⟩) hts
  | @prefixed start k _ _ _ _ _ ih =>
    exact fun hts => (extent_singleton ⟨k, start⟩).merge [] (ih hts.tail) hts
  | chained place hop _ _ _ ihleft ihright =>
    intro hts
    rw [hop.span_node]
    exact (ihleft hts.left).merge [⟨_, place⟩] (ihright hts.right.tail) hts
  | compared place _ _ _ ihleft ihright =>
    exact fun hts => (ihleft hts.left).merge [⟨_, place⟩] (ihright hts.right.tail) hts
  | @conditional question colon _ us vs _ _ _ _ _ _ ihcondition _ ihno =>
    intro hts
    rw [List.append_assoc, List.append_cons _ _ vs] at hts ⊢
    exact (ihcondition hts.left).merge (⟨_, question⟩ :: us ++ [⟨_, colon⟩])
      (ihno hts.right.right) hts
  | tighter _ _ ih => exact ih
  | noItems | lastItem | moreItems | entry | noEntries | lastEntry | moreEntries => trivial

/-! ### The nodes inside -/

variable {e : Expr} {es fs : List Expr} {r : Rank}

/-- The expressions stand among the tokens one behind the other, each on tokens of its own. -/
inductive Row : List Token → List Expr → Prop where
  | nil : Row [] []
  | skip (t : Token) {ts : List Token} {es : List Expr} : Row ts es → Row (t :: ts) es
  | take {r : Rank} {us ts : List Token} {e : Expr} {es : List Expr} :
    Spelled (.expr r) us e → Row ts es → Row (us ++ ts) (e :: es)

theorem Row.single (h : Spelled (.expr r) ts e) : Row ts [e] := by
  simpa only [List.append_nil] using Row.take h .nil

theorem Row.append (h : Row ts es) (hmore : Row us fs) : Row (ts ++ us) (es ++ fs) := by
  induction h with
  | nil => exact hmore
  | skip t _ ih => exact ih.skip t
  | take he _ ih =>
    rw [List.append_assoc]
    exact .take he ih

/-- A token behind all expressions. -/
theorem Row.close (h : Row ts es) (t : Token) : Row (ts ++ [t]) es := by
  simpa only [List.append_nil] using h.append (Row.nil.skip t)

/-- Each expression of a row has its tokens. -/
theorem Row.exists_infix (h : Row ts es) :
    ∀ e ∈ es, ∃ r us, us <:+: ts ∧ Spelled (.expr r) us e := by
  induction h with
  | nil => nofun
  | skip t _ ih =>
    intro e he
    obtain ⟨r, us, hus, hspelled⟩ := ih e he
    exact ⟨r, us, hus.trans (List.suffix_cons t _).isInfix, hspelled⟩
  | @take r us ts e es he _ ih =>
    refine List.forall_mem_cons.2 ⟨⟨r, us, (List.prefix_append us ts).isInfix, he⟩, fun f hf => ?_⟩
    obtain ⟨q, vs, hvs, hspelled⟩ := ih f hf
    exact ⟨q, vs, hvs.trans (List.suffix_append us ts).isInfix, hspelled⟩

/-- The spans of a row are apart. -/
theorem Row.apart (h : Row ts es) (hts : Ordered ts) :
    es.Pairwise fun e f => e.span.stop < f.span.start := by
  induction h with
  | nil => exact .nil
  | skip _ _ ih => exact ih hts.tail
  | take he hrest ih =>
    refine .cons (fun f hf => ?_) (ih hts.right)
    obtain ⟨_, vs, hvs, hf⟩ := hrest.exists_infix f hf
    have hboth := hts.sublist (hvs.sublist.append_left _)
    exact (he.exact hboth.left).stop_lt_start (hf.exact hboth.right) hboth

/-- The expressions right inside a tree. -/
def inside : (n : Nonterminal) → n.Tree → List Expr
  | .expr _, e => e.children
  | .items, items => items
  | .entry, entry => [entry.2]
  | .entries, entries => entries.map Prod.snd

theorem ChainOperator.children_node {k : Token.Kind} {node : Span → Expr → Expr → Expr}
    (h : ChainOperator r k node) (span : Span) (left right : Expr) :
    (node span left right).children = [left, right] := by
  cases h <;> rfl

theorem Spelled.row {n : Nonterminal} {tree : n.Tree} (h : Spelled n ts tree) :
    Row ts (inside n tree) := by
  induction h with
  | literal h => cases h <;> exact Row.nil.skip _
  | identifier span name => exact Row.nil.skip _
  | call _ _ closing _ ih => exact ((ih.close ⟨_, closing⟩).skip _).skip _
  | array _ closing _ ih => exact (ih.close ⟨_, closing⟩).skip _
  | map _ closing _ ih => exact (ih.close ⟨_, closing⟩).skip _
  | paren _ closing h _ => exact ((Row.single h).close ⟨_, closing⟩).skip _
  | member _ _ hobject _ _ => exact .take hobject ((Row.nil.skip _).skip _)
  | index _ closing hobject hplace _ _ =>
    rw [List.append_assoc]
    exact .take hobject (((Row.single hplace).close ⟨_, closing⟩).skip _)
  | prefixed _ _ h _ => exact (Row.single h).skip _
  | chained _ hop _ hleft hright _ _ =>
    rw [inside, hop.children_node]
    exact .take hleft ((Row.single hright).skip _)
  | compared _ _ hleft hright _ _ => exact .take hleft ((Row.single hright).skip _)
  | conditional _ _ hcondition hyes hno _ _ _ =>
    rw [List.append_assoc]
    exact .take hcondition ((Row.take hyes ((Row.single hno).skip _)).skip _)
  | tighter _ _ ih => exact ih
  | noItems => exact .nil
  | lastItem h _ => exact .single h
  | moreItems _ h _ _ ih => exact .take h (ih.skip _)
  | entry _ _ _ h _ => exact ((Row.single h).skip _).skip _
  | noEntries => exact .nil
  | lastEntry _ ih => exact ih
  | moreEntries _ _ _ ih ihrest => exact ih.append (ihrest.skip _)

/-- The tokens are those of the node: they spell it, its span goes from the first to the last of
them, and the spans right inside are parts of its span, one behind the other. -/
structure Stands (ts : List Token) (e : Expr) : Prop where
  spelled : ∃ r, Spelled (.expr r) ts e
  extent : Extent ts e.span
  contains : ∀ child ∈ e.children, e.span.Contains child.span
  apart : e.children.Pairwise fun a b => a.span.stop < b.span.start

theorem Spelled.stands (h : Spelled (.expr r) ts e) (hts : Ordered ts) : Stands ts e where
  spelled := ⟨r, h⟩
  extent := h.exact hts
  contains child hchild := by
    obtain ⟨q, us, hus, hspelled⟩ := h.row.exists_infix child hchild
    exact (h.exact hts).contains hts hus.subset (hspelled.exact (hts.sublist hus.sublist))
  apart := h.row.apart hts

/-- Every expression anywhere inside has its tokens. -/
theorem Spelled.exists_infix (h : Spelled (.expr r) ts e) :
    ∀ node ∈ e.subterms, ∃ q us, us <:+: ts ∧ Spelled (.expr q) us node := by
  induction e using Expr.induction_children generalizing r ts with
  | h e ih =>
    intro node hnode
    rw [Expr.subterms_eq, List.mem_cons, List.mem_flatten] at hnode
    rcases hnode with rfl | ⟨_, hnodes, hnode⟩
    · exact ⟨r, ts, List.infix_rfl, h⟩
    · obtain ⟨child, hchild, rfl⟩ := List.mem_map.1 hnodes
      obtain ⟨q, us, hus, hspelled⟩ := h.row.exists_infix child hchild
      obtain ⟨q', vs, hvs, hnode⟩ := ih child hchild hspelled node hnode
      exact ⟨q', vs, hvs.trans hus, hnode⟩

end Grammar

end JsonTemplate
