import JsonTemplate.Proofs.Grammar.Enclosed
import JsonTemplate.Proofs.Grammar.Soundness

/-! The parser accepts exactly the sentences of the grammar that do not nest too deep. As many
tokens as there are levels never do. -/

namespace JsonTemplate

namespace Parser

open Token (Kind)
open Grammar

variable {ts : List Kind}

/-! ### Every phrase is read -/

/-- What the parsers of a nonterminal do with a phrase. Where the first operand may be a phrase of
the same rank, the parser goes on behind the phrase. -/
def Complete : (n : Nonterminal) → List Kind → n.Tree → Prop
  | .expr r, ts, e =>
    match operand? r with
    | some operand => Grows r operand ts e
    | none => Direct r ts e
  | .items, ts, items =>
    ListReaches expressionWithin (Expr.bareItems · = Expr.bareItems items) ts
  | .entry, ts, entry =>
    Reaches (fun levels => Parser.entry (expressionWithin levels)) (SameEntry entry) ts
  | .entries, ts, entries =>
    ListReaches (fun levels => Parser.entry (expressionWithin levels))
      (Expr.bareEntries · = Expr.bareEntries entries) ts

theorem complete_grows {r operand : Rank} {e : Expr} (hr : operand? r = some operand) :
    Complete (.expr r) ts e ↔ Grows r operand ts e := by
  rw [Complete, hr]

theorem Complete.direct {r : Rank} {e : Expr} (h : Complete (.expr r) ts e) : Direct r ts e := by
  cases hr : operand? r with
  | some operand => exact ((complete_grows hr).1 h).direct hr
  | none => rwa [Complete, hr] at h

theorem Complete.tighter {r operand : Rank} {e : Expr} (h : Complete (.expr operand) ts e)
    (hr : Tighter r operand) (hp : Phrase (.expr operand) ts e) : Complete (.expr r) ts e := by
  cases hr with
  | conditional => exact Direct.lone h.direct
  | comparison => exact Direct.comparison h.direct
  | unary =>
    obtain ⟨k, us, hts, hk⟩ := hp.starts _ rfl
    rcases hk with hk | ⟨hlt, -⟩
    · exact Direct.unary h.direct hts hk
    · exact absurd hlt (Nat.lt_irrefl _)
  | coalesce | or | and | sum | product | access =>
    exact (complete_grows rfl).2 (h.direct.grows hp.length_pos)

theorem Complete.reaches {e : Expr} (h : Complete (.expr .conditional) ts e)
    (hp : Phrase (.expr .conditional) ts e) : Reaches expressionWithin (SameAs e) ts :=
  h.direct.reaches hp.length_pos

theorem complete {n : Nonterminal} {t : n.Tree} (h : Phrase n ts t) : Complete n ts t := by
  induction h with
  | literal h => exact Direct.literal h
  | identifier span name => exact Direct.identifier span name
  | call span function _ ih => exact Direct.call ih span function
  | array span _ ih => exact Direct.array ih span
  | map span _ ih => exact Direct.map ih span
  | paren span hp ih => exact Direct.paren (ih.reaches hp) span
  | member span field _ hfield ih =>
    exact (complete_grows rfl).2 (((complete_grows rfl).1 ih).member hfield span)
  | index span _ hplace ihobject ihplace =>
    exact (complete_grows rfl).2
      (((complete_grows rfl).1 ihobject).index (ihplace.reaches hplace) span)
  | prefixed span hop hp ih => exact Direct.prefixed hop ih.direct hp.length_pos span
  | chained span hop hr _ hright ihleft ihright =>
    have hoperand := operand?_of_chainOperator hop hr
    have hgrows := (complete_grows hoperand).1 ihleft
    exact (complete_grows hoperand).2
      (hgrows.chained hop hr ihright.direct hright.length_pos span)
  | compared span hop _ _ ihleft ihright =>
    exact Direct.compared hop ihleft.direct ihright.direct span
  | conditional span _ hyes hno ihcondition ihyes ihno =>
    exact Direct.conditional ihcondition.direct (ihyes.reaches hyes) (ihno.reaches hno) span
  | tighter hr hp ih => exact ih.tighter hr hp
  | noItems => exact ListReaches.none rfl
  | lastItem hp ih =>
    exact ListReaches.last (ih.reaches hp) (begins_expr hp) fun _ he => bareItems_cons he rfl
  | moreItems hp _ ih ihrest =>
    exact ListReaches.more (ih.reaches hp) (begins_expr hp) ihrest fun _ _ => bareItems_cons
  | entry hkey hp ih => exact Reaches.entry hkey (ih.reaches hp)
  | noEntries => exact ListReaches.none rfl
  | lastEntry hp ih =>
    exact ListReaches.last ih (begins_entry hp) fun _ he => bareEntries_cons he rfl
  | moreEntries hp _ ih ihrest =>
    exact ListReaches.more ih (begins_entry hp) ihrest fun _ _ => bareEntries_cons

end Parser

/-! ### Whole lists of tokens -/

namespace Parsing

open Token (Kind)
open Grammar
open JsonTemplate.Parser

variable {body : List Token} {e : Token} {x : Expr}

theorem ofTokens_eq_some {tokens : List Token} :
    ofTokens tokens = ⟨some x, []⟩ ↔ (start tokens).kind ≠ .eof ∧
      ∃ s, expression (start tokens) = (some x, s) ∧ s.kind = .eof ∧ s.faults = [] := by
  unfold ofTokens
  by_cases hempty : (start tokens).kind = .eof
  · simp [hempty]
  rw [if_neg hempty]
  generalize expression (start tokens) = result
  obtain ⟨_ | found, s⟩ := result
  · simp
  by_cases hs : s.kind = .eof
  · simp only [if_pos hs]
    constructor
    · intro h
      obtain ⟨hx, hf⟩ := Parsing.mk.inj h
      cases hx
      exact ⟨hempty, s, rfl, hs, hf⟩
    · rintro ⟨-, t, ht, -, hf⟩
      cases ht
      rw [hf]
  · simp only [if_neg hs]
    constructor
    · intro h
      exact absurd (Parsing.mk.inj h).2 (by simp [ParserState.report])
    · rintro ⟨-, t, ht, hk, -⟩
      cases ht
      exact absurd hk hs

/-- The kinds in front of the end token are never empty if something is read from them. -/
theorem kind_start (he : e.kind = .eof) (hbody : ∀ token ∈ body, token.kind ≠ .eof) :
    (start (body ++ [e])).kind = .eof ↔ body = [] := by
  cases body with
  | nil => simpa [start, ParserState.kind, ParserState.current?] using he
  | cons token body =>
    simpa [start, ParserState.kind, ParserState.current?] using hbody token List.mem_cons_self

/-- An expression that is read without a fault stands for all tokens in front of the end. -/
theorem sentence_of_ofTokens (he : e.kind = .eof) (hbody : ∀ token ∈ body, token.kind ≠ .eof)
    (h : ofTokens (body ++ [e]) = ⟨some x, []⟩) : Sentence (body.map Token.kind) x := by
  obtain ⟨-, s, hrun, hs, -⟩ := ofTokens_eq_some.1 h
  obtain ⟨ts, hts, hx⟩ := reads_expressionWithin _ (ParserState.ended_start he hbody) hrun
  obtain ⟨us, hus, hend⟩ := hts.ended
  have hnil : us = [] := by
    cases us with
    | nil => rfl
    | cons k us =>
      have hk : s.kind = k := ParserState.kind_of_kinds hus
      rw [hs] at hk
      rw [← hk] at hend
      exact absurd List.mem_cons_self hend
  have hkinds : body.map Token.kind ++ [Kind.eof] = ts.map Token.kind ++ [Kind.eof] := by
    have hall := hts.kinds
    rw [hus, hnil] at hall
    simpa [ParserState.kinds, start, he] using hall
  rw [List.append_cancel_right hkinds]
  exact hx.phrase

/-- A sentence is read, or nested too deep, which takes more tokens than there are levels. -/
theorem ofTokens_of_sentence (he : e.kind = .eof) (hbody : ∀ token ∈ body, token.kind ≠ .eof)
    (h : Sentence (body.map Token.kind) x) :
    (∃ y, y.bare = x.bare ∧ ofTokens (body ++ [e]) = ⟨some y, []⟩) ∨
      nestingLimit < body.length ∧
        ∃ span, ofTokens (body ++ [e]) = ⟨none, [⟨.tooDeep, span⟩]⟩ := by
  have hpos := h.length_pos
  rw [List.length_map] at hpos
  have hne : (start (body ++ [e])).kind ≠ .eof := by
    rw [Ne, kind_start he hbody]
    exact List.ne_nil_of_length_pos hpos
  have hat : At (start (body ++ [e])) (body.map Token.kind ++ .eof :: []) 0 [] :=
    ⟨by simp [ParserState.kinds, start, he], rfl, rfl⟩
  have hends : Ends [.eof] 0 [] (SameAs x) (nestingLimit < 0 + (body.map Token.kind).length)
      (expressionWithin (nestingLimit + 1) (start (body ++ [e]))) :=
    (complete h).reaches h hat (by decide) (Nat.zero_le _) (by omega)
  cases hrun : expressionWithin (nestingLimit + 1) (start (body ++ [e])) with
  | mk result s =>
    rw [hrun] at hends
    cases hends with
    | read hy hs =>
      left
      exact ⟨_, hy, ofTokens_eq_some.2 ⟨hne, s, hrun, hs.kind, hs.faults⟩⟩
    | @tooDeep _ span htight hf =>
      right
      refine ⟨by simpa using htight, span, ?_⟩
      have hexpression : expression (start (body ++ [e])) = (none, s) := hrun
      simp only [ofTokens, if_neg hne, hexpression, hf, List.nil_append]

/-- The parser reads a sentence, and nothing else, without a fault. It gives the expression that
the sentence stands for, unless this nests too deep. -/
theorem ofTokens_iff_sentence (he : e.kind = .eof)
    (hbody : ∀ token ∈ body, token.kind ≠ .eof) :
    (∀ x, ofTokens (body ++ [e]) = ⟨some x, []⟩ → Sentence (body.map Token.kind) x) ∧
    (∀ x, Sentence (body.map Token.kind) x →
      (∃ y, y.bare = x.bare ∧ ofTokens (body ++ [e]) = ⟨some y, []⟩) ∨
        ∃ span, ofTokens (body ++ [e]) = ⟨none, [⟨.tooDeep, span⟩]⟩) ∧
    (∀ x, Sentence (body.map Token.kind) x → body.length ≤ nestingLimit →
      ∃ y, y.bare = x.bare ∧ ofTokens (body ++ [e]) = ⟨some y, []⟩) := by
  refine ⟨fun x => sentence_of_ofTokens he hbody, ?_, ?_⟩
  · intro x hx
    rcases ofTokens_of_sentence he hbody hx with hread | ⟨-, hdeep⟩
    · exact .inl hread
    · exact .inr hdeep
  · intro x hx hlength
    rcases ofTokens_of_sentence he hbody hx with hread | ⟨hlong, -⟩
    · exact hread
    · omega

/-- `a + 1` is a sentence, and short enough. -/
theorem ofTokens_iff_sentence_sum :
    let body : List Token :=
      [⟨.identifier "a", default⟩, ⟨.symbol .plus, default⟩, ⟨.int 1, default⟩]
    ∃ y : Expr, y.bare = .binary default .add (.identifier default "a") (.int default 1) ∧
      ofTokens (body ++ [⟨.eof, default⟩]) = ⟨some y, []⟩ := by
  intro body
  have hproduct {k : Kind} {x : Expr} (h : Phrase (.expr .primary) [k] x) :
      Phrase (.expr .product) [k] x := .tighter .product (.tighter .unary (.tighter .access h))
  have hleft := hproduct (.identifier default "a")
  have hright := hproduct (.literal (.int default 1))
  have hsum := Phrase.chained default .plus .sum (.tighter .sum hleft) hright
  have hor : Phrase (.expr .or) _ _ :=
    .tighter .or (.tighter .and (.tighter .comparison hsum))
  have hsentence : Sentence (body.map Token.kind) _ :=
    .tighter .conditional (.tighter .coalesce hor)
  have hbody : ∀ token ∈ body, token.kind ≠ .eof := by simp [body]
  exact (ofTokens_iff_sentence rfl hbody).2.2 _ hsentence (by decide)

/-- No longer sentence is sure to be read: here are as many prefix operators as there are levels. -/
example : (ofTokens (List.replicate nestingLimit ⟨.symbol .minus, default⟩ ++
    [⟨.int 1, default⟩, ⟨.eof, default⟩])).expr.isNone := by
  decide +kernel

end Parsing

end JsonTemplate
