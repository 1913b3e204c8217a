import JsonTemplate.Proofs.Grammar.Completeness

/-! Lists, entries and primary expressions of the grammar are read. A closing symbol starts no
item, so a list ends where the parser stops asking for more. -/

namespace JsonTemplate.Parser

open Token (Kind)
open Grammar

variable {α : Type} {s : ParserState} {k : Kind} {ts us : List Kind} {d : Nat}
  {fs : List LocatedFault}

/-! ### Lists -/

theorem stops_close {close : Symbol} (h : Closes close) :
    Stops .conditional (.symbol close) := by
  cases h <;> decide

/-- The first of the tokens closes nothing. -/
def Begins (ts : List Kind) : Prop :=
  ∃ k us, ts = k :: us ∧ ∀ close, Closes close → k ≠ .symbol close

theorem begins_expr {r : Rank} {e : Expr} (h : Phrase (.expr r) ts e) : Begins ts := by
  obtain ⟨k, us, rfl, hk⟩ := h.starts r rfl
  exact ⟨k, us, rfl, fun _ => hk.ne_close⟩

theorem begins_entry {entry : String × Expr} (h : Phrase .entry ts entry) : Begins ts := by
  cases h with
  | entry hkey _ => exact ⟨_, _, rfl, fun _ _ => hkey.ne_symbol⟩

/-- A parser of items reads the tokens as a list, in front of a closing symbol. -/
def ListReaches (item : Nat → Parser α) (same : List α → Prop) (ts : List Kind) : Prop :=
  ∀ ⦃levels rounds : Nat⦄ ⦃s : ParserState⦄ ⦃close : Symbol⦄ ⦃us : List Kind⦄ ⦃d : Nat⦄
    ⦃fs : List LocatedFault⦄, At s (ts ++ .symbol close :: us) d fs → Closes close →
    d ≤ nestingLimit → nestingLimit < levels + d → ts.length < rounds →
    Ends (.symbol close :: us) d fs same (nestingLimit < d + ts.length)
      (itemsFrom (item levels) close rounds s)

section Items
variable {item : Nat → Parser α} {one : α → Prop} {rest many : List α → Prop}

theorem itemsFrom_close {p : Parser α} {close : Symbol} {rounds : Nat}
    (h : s.kind = .symbol close) : itemsFrom p close (rounds + 1) s = (some [], s) := by
  rw [itemsFrom, kind_bind, if_pos h]
  rfl

theorem itemsFrom_item {p : Parser α} {close : Symbol} {rounds : Nat}
    (h : s.kind ≠ .symbol close) :
    itemsFrom p close (rounds + 1) s =
      (do let first ← p
          if ← eat .comma then
            let others ← itemsFrom p close rounds
            pure (first :: others)
          else pure [first]) s := by
  rw [itemsFrom, kind_bind, if_neg h]

theorem ListReaches.none (h : many []) : ListReaches item many [] := by
  intro levels rounds s close us d fs hs hc hd hl hr
  obtain ⟨rounds, rfl⟩ : ∃ n, rounds = n + 1 := Nat.exists_eq_add_one.2 (by omega)
  rw [itemsFrom_close hs.kind]
  exact .read h hs

theorem ListReaches.last (hitem : Reaches item one ts) (hts : Begins ts)
    (h : ∀ a, one a → many [a]) : ListReaches item many ts := by
  intro levels rounds s close us d fs hs hc hd hl hr
  obtain ⟨rounds, rfl⟩ : ∃ n, rounds = n + 1 := Nat.exists_eq_add_one.2 (by omega)
  obtain ⟨k, vs, rfl, hk⟩ := hts
  rw [itemsFrom_item (by rw [hs.kind]; exact hk close hc)]
  apply (hitem hs (stops_close hc) hd hl).bind id
  intro a t ha ht
  rw [bind_of_some (eat_of_ne (by rw [ht.kind]; exact hc.ne_comma))]
  exact .read (h a ha) ht

theorem ListReaches.more (hitem : Reaches item one ts) (hts : Begins ts)
    (hrest : ListReaches item rest us) (h : ∀ a as, one a → rest as → many (a :: as)) :
    ListReaches item many (ts ++ .symbol .comma :: us) := by
  intro levels rounds s close vs d fs hs hc hd hl hr
  obtain ⟨rounds, rfl⟩ : ∃ n, rounds = n + 1 := Nat.exists_eq_add_one.2 (by omega)
  obtain ⟨k, ws, rfl, hk⟩ := hts
  rw [List.append_assoc, List.cons_append] at hs
  have hlength : (k :: ws ++ Kind.symbol .comma :: us).length =
      (k :: ws).length + us.length + 1 := by
    simp only [List.length_append, List.length_cons]
    omega
  rw [hlength] at hr ⊢
  rw [itemsFrom_item (by rw [hs.kind]; exact hk close hc)]
  apply (hitem hs (by decide) hd hl).bind (by omega)
  intro a t ha ht
  rw [bind_of_some (eat_of_eq ht.kind)]
  apply Ends.bind (hrest ht.next hc hd hl (by omega)) (by omega)
  intro as t' has ht'
  exact .read (h a as ha has) ht'

/-- There are enough rounds for all items. -/
theorem ListReaches.items {close : Symbol} {levels : Nat} (h : ListReaches item many ts)
    (hs : At s (ts ++ .symbol close :: us) d fs) (hc : Closes close) (hd : d ≤ nestingLimit)
    (hl : nestingLimit < levels + d) :
    Ends (.symbol close :: us) d fs many (nestingLimit < d + ts.length)
      (items (item levels) close s) := by
  apply h hs hc hd hl
  have hlength : s.rest.length = (ts ++ Kind.symbol close :: us).length := by
    rw [← hs.kinds, ParserState.kinds, List.length_map]
  rw [hlength, List.length_append]
  omega

end Items

/-- The same key, and the same expression, spans aside. -/
def SameEntry (entry entry' : String × Expr) : Prop :=
  entry'.1 = entry.1 ∧ SameAs entry.2 entry'.2

theorem bareItems_cons {e e' : Expr} {items items' : List Expr} (he : SameAs e e')
    (h : Expr.bareItems items' = Expr.bareItems items) :
    Expr.bareItems (e' :: items') = Expr.bareItems (e :: items) := by
  rw [Expr.bareItems, Expr.bareItems, he, h]

theorem bareEntries_cons {entry entry' : String × Expr} {entries entries' : List (String × Expr)}
    (he : SameEntry entry entry') (h : Expr.bareEntries entries' = Expr.bareEntries entries) :
    Expr.bareEntries (entry' :: entries') = Expr.bareEntries (entry :: entries) := by
  obtain ⟨key, e⟩ := entry
  obtain ⟨key', e'⟩ := entry'
  obtain ⟨rfl, hsame⟩ := he
  rw [Expr.bareEntries, Expr.bareEntries, hsame, h]

theorem Reaches.entry {key : String} {e : Expr} (hkey : EntryKey k key)
    (h : Reaches expressionWithin (SameAs e) ts) :
    Reaches (fun levels => entry (expressionWithin levels)) (SameEntry (key, e))
      (k :: .symbol .colon :: ts) := by
  intro levels s c us d fs hs hc hd hl
  have hread : Parser.key s = (some key, s.next) := by
    rw [Parser.key, kind_bind, hs.kind, keyText?_eq_some.2 hkey]
    rfl
  change Ends _ _ _ _ _ (Parser.entry (expressionWithin levels) s)
  rw [Parser.entry, bind_of_some hread]
  apply (ends_expect hs.next).bind nofun
  intro _ t _ ht
  apply (h ht hc hd hl).bind (by simp only [List.length_cons]; omega)
  intro e' t' he ht'
  exact .read ⟨rfl, he⟩ ht'

/-! ### Primary expressions -/

theorem ofRank_primary (expression : Parser Expr) :
    ofRank expression .primary = primary expression := rfl

theorem literal?_of_literal {e : Expr} (h : Literal k e) (span : Span) :
    ∃ e', literal? span k = some e' ∧ SameAs e e' := by
  cases h <;> exact ⟨_, rfl, rfl⟩

theorem Direct.literal {e : Expr} (h : Literal k e) : Direct .primary [k] e := by
  intro levels s c us d fs hs hc hd hl
  obtain ⟨e', he, hsame⟩ := literal?_of_literal h s.here
  rw [ofRank_primary, primary_literal (by rw [hs.kind]; exact he)]
  exact .read hsame hs.next

theorem Direct.identifier (span : Span) (name : String) :
    Direct .primary [.identifier name] (.identifier span name) := by
  intro levels s k us d fs hs hk hd hl
  have hfollowing : s.following = k := ParserState.following_of_kinds hs.kinds
  have hcall : k ≠ .symbol .leftParen := by
    rintro rfl
    exact absurd hk (Nat.lt_irrefl _)
  rw [ofRank_primary, primary_identifier hs.kind (by rw [hfollowing]; exact hcall)]
  exact .read rfl hs.next

/-- What stands in front of a closing symbol becomes a node around it. -/
theorem ends_enclosed {inner : Parser α} {same : α → Prop} {tight : Prop} {close : Symbol}
    {e : Expr} {start : Span} (node : Span → α → Expr)
    (hinner : Ends (.symbol close :: us) d fs same tight (inner s))
    (hnode : ∀ span a, same a → SameAs e (node span a)) :
    Ends us d fs (SameAs e) tight
      ((do let a ← inner
           expect close
           pure (node (start.merge (← previous)) a) : Parser Expr) s) := by
  apply hinner.bind id
  intro a t ha ht
  apply (ends_expect ht).bind nofun
  intro _ t' _ ht'
  exact .read (hnode _ a ha) ht'

/-- The tokens between two symbols, with what is behind them. -/
theorem append_enclosed (close : Kind) (ts us : List Kind) :
    ts ++ [close] ++ us = ts ++ close :: us := by
  rw [List.append_assoc, List.cons_append, List.nil_append]

theorem Direct.array {items : List Expr}
    (h : ListReaches expressionWithin (Expr.bareItems · = Expr.bareItems items) ts) (span : Span) :
    Direct .primary (.symbol .leftBracket :: ts ++ [.symbol .rightBracket])
      (.array span items) := by
  intro levels s k us d fs hs hk hd hl
  rw [append_enclosed, List.cons_append] at hs
  rw [ofRank_primary, primary_array hs.kind, Parser.array, advance_bind]
  apply (ends_enclosed .array (h.items hs.next .bracket hd hl) ?_).imp ?_ fun _ he => he
  · intro span' items' hsame
    rw [SameAs, Expr.bare, Expr.bare, hsame]
  · simp only [List.length_append, List.length_cons]
    omega

theorem Direct.map {entries : List (String × Expr)}
    (h : ListReaches (fun levels => entry (expressionWithin levels))
      (Expr.bareEntries · = Expr.bareEntries entries) ts) (span : Span) :
    Direct .primary (.symbol .leftBrace :: ts ++ [.symbol .rightBrace])
      (.map span entries) := by
  intro levels s k us d fs hs hk hd hl
  rw [append_enclosed, List.cons_append] at hs
  rw [ofRank_primary, primary_map hs.kind, Parser.map, advance_bind]
  apply (ends_enclosed .map (h.items hs.next .brace hd hl) ?_).imp ?_ fun _ he => he
  · intro span' entries' hsame
    rw [SameAs, Expr.bare, Expr.bare, hsame]
  · simp only [List.length_append, List.length_cons]
    omega

theorem Direct.paren {e : Expr} (h : Reaches expressionWithin (SameAs e) ts) (span : Span) :
    Direct .primary (.symbol .leftParen :: ts ++ [.symbol .rightParen]) (.paren span e) := by
  intro levels s k us d fs hs hk hd hl
  rw [append_enclosed, List.cons_append] at hs
  rw [ofRank_primary, primary_paren hs.kind, Parser.paren, advance_bind]
  apply (ends_enclosed .paren (h hs.next (by decide) hd hl) ?_).imp ?_ fun _ he => he
  · intro span' e' hsame
    rw [SameAs, Expr.bare, Expr.bare, hsame]
  · simp only [List.length_append, List.length_cons]
    omega

theorem Direct.call {arguments : List Expr}
    (h : ListReaches expressionWithin (Expr.bareItems · = Expr.bareItems arguments) ts)
    (span : Span) (function : Name) :
    Direct .primary
      (.identifier function.text :: .symbol .leftParen :: ts ++ [.symbol .rightParen])
      (.call span function arguments) := by
  intro levels s k us d fs hs hk hd hl
  rw [append_enclosed, List.cons_append, List.cons_append] at hs
  have hopen : expect .leftParen s.next = (some (), s.next.next) :=
    expect_eq_some.2 ⟨hs.next.kind, rfl⟩
  rw [ofRank_primary, primary_call hs.kind (ParserState.following_of_kinds hs.kinds), Parser.call,
    advance_bind, bind_of_some hopen]
  apply (ends_enclosed (fun span' arguments' => .call span' ⟨function.text, s.here⟩ arguments')
    (h.items hs.next.next .paren hd hl) ?_).imp ?_ fun _ he => he
  · intro span' arguments' hsame
    rw [SameAs, Expr.bare, Expr.bare, hsame]
  · simp only [List.length_append, List.length_cons]
    omega

end JsonTemplate.Parser
