import JsonTemplate.Proofs.Lexing.Lexemes

/-! Whole texts. A text that is read without a fault is blanks and lexemes in turns, and its tokens
are those of the lexemes, each on the span of its own. -/

namespace JsonTemplate.Lexer

open Source (place)
open Token (Kind)

variable {before gap text rest : List Char} {tokens : List Token} {c next : Cursor}

/-- The text behind `before` consists of blanks and the lexemes of the tokens, and the end token
stands right behind it. -/
inductive Laid : List Char → List Char → List Token → Prop where
  | done {before gap : List Char} : (∀ c ∈ gap, isSpace c) →
    Laid before gap [endToken (place (before ++ gap))]
  | token {before gap text rest : List Char} {kind : Kind} {tokens : List Token} :
    (∀ c ∈ gap, isSpace c) → Lexeme text kind rest → Laid (before ++ gap ++ text) rest tokens →
    Laid before (gap ++ text ++ rest)
      (⟨kind, spanTo (place (before ++ gap)) (place (before ++ gap ++ text))⟩ :: tokens)

theorem skipSpaces_eq (hgap : ∀ c ∈ gap, isSpace c)
    (hrest : ∀ c, rest.head? = some c → ¬isSpace c) :
    (⟨gap ++ rest, place before⟩ : Cursor).skipSpaces = ⟨rest, place (before ++ gap)⟩ := by
  rw [Cursor.skipSpaces]
  simp only [takeWhile_append_stop hgap hrest, dropWhile_append_stop hgap hrest,
    Source.after_place]

/-! ### One step -/

theorem scan_done {found : Nat} (h : c.skipSpaces.rest = []) :
    scan found c = ([endToken c.skipSpaces.position], []) := by
  rw [scan]
  split
  · rfl
  · next hc =>
    rw [h] at hc
    cases hc

/-- The token that was read from a place on, unless it was a faulty character. -/
def Reading.token? (r : Reading) (start : Position) : Option Token :=
  r.kind.map fun kind => ⟨kind, spanTo start r.next.position⟩

/-- While the report is not full, what is read comes first, and its faults count. -/
theorem scan_step {first : Char} {more : List Char} {found : Nat} {r : Reading}
    (hc : c.skipSpaces.rest = first :: more) (hread : read first c.skipSpaces = r)
    (hroom : found + r.faults.length < Report.capacity) :
    scan found c =
      ((r.token? c.skipSpaces.position).toList ++ (scan (found + r.faults.length) r.next).1,
        r.faults ++ (scan (found + r.faults.length) r.next).2) := by
  rw [scan]
  split
  · next h =>
    rw [hc] at h
    cases h
  · next first' _ h =>
    rw [hc] at h
    cases h
    have hfound : found < Report.capacity := Nat.lt_of_le_of_lt (Nat.le_add_right _ _) hroom
    obtain ⟨kind, faults, next⟩ := r
    simp only [hread]
    rw [if_neg (Nat.not_le_of_lt hfound)]
    cases kind with
    | none => rfl
    | some kind =>
      simp only
      rw [if_neg (Nat.not_le_of_lt hroom)]
      rfl

theorem scan_read {first : Char} {more : List Char} {kind : Kind} {faults : List LocatedFault}
    {found : Nat} (hc : c.skipSpaces.rest = first :: more)
    (hread : read first c.skipSpaces = ⟨some kind, faults, next⟩)
    (hroom : found + faults.length < Report.capacity) :
    scan found c =
      (⟨kind, spanTo c.skipSpaces.position next.position⟩ :: (scan (found + faults.length) next).1,
        faults ++ (scan (found + faults.length) next).2) :=
  scan_step hc hread hroom

theorem scan_token {first : Char} {more : List Char} {kind : Kind}
    (hc : c.skipSpaces.rest = first :: more)
    (hread : read first c.skipSpaces = ⟨some kind, [], next⟩) :
    scan 0 c = (⟨kind, spanTo c.skipSpaces.position next.position⟩ :: (scan 0 next).1,
      (scan 0 next).2) :=
  scan_read hc hread (show 0 < 20 by decide)

theorem faults_of_read_eq_none {first : Char} (h : (read first c).kind = none) :
    (read first c).faults ≠ [] := by
  rcases start_cases first with hquote | hdigit | hword | ⟨hquote, hother⟩
  · rw [read_quote hquote] at h
    cases h
  · rw [read_digit hdigit] at h
    unfold readNumber at h
    simp only at h
    split at h <;> cases h
  · rw [read_word hword] at h
    cases h
  · rw [read_other hquote hother] at h ⊢
    split
    · next hat =>
      rw [hat] at h
      cases h
    · exact List.cons_ne_nil _ _

/-- What a step reads if no fault is found to the end. -/
theorem exists_read_of_scan (h : (scan 0 c).2 = []) (hc : c.skipSpaces.rest ≠ []) :
    ∃ first more kind next, c.skipSpaces.rest = first :: more ∧
      read first c.skipSpaces = ⟨some kind, [], next⟩ := by
  rw [scan] at h
  split at h
  · next hnil => exact absurd hnil hc
  · next first more hcons =>
    refine ⟨first, more, ?_⟩
    have hnone : (read first c.skipSpaces).kind = none → (read first c.skipSpaces).faults ≠ [] :=
      faults_of_read_eq_none
    simp only at h
    generalize read first c.skipSpaces = r at *
    obtain ⟨kind, faults, next⟩ := r
    have hfaults : faults = [] := by
      split at h
      · next hfull => exact absurd hfull (by decide)
      split at h
      · exact (List.append_eq_nil_iff.1 h).1
      split at h
      · exact h
      · exact (List.append_eq_nil_iff.1 h).1
    cases kind with
    | none => exact absurd hfaults (hnone rfl)
    | some kind => exact ⟨kind, next, hcons, by rw [hfaults]⟩

/-! ### Whole texts -/

theorem Laid.scan_eq (h : Laid before text tokens) :
    scan 0 ⟨text, place before⟩ = (tokens, []) := by
  induction h with
  | @done before gap hgap =>
    have hskip : (⟨gap, place before⟩ : Cursor).skipSpaces = ⟨[], place (before ++ gap)⟩ := by
      have hnone : ∀ c, ([] : List Char).head? = some c → ¬isSpace c := nofun
      simpa only [List.append_nil] using skipSpaces_eq hgap hnone
    rw [scan_done (congrArg Cursor.rest hskip), hskip]
  | @token before gap text rest kind tokens hgap hlexeme _ ih =>
    obtain ⟨first, more, rfl, hread⟩ := hlexeme.read_eq
    have hspace : ¬isSpace first := by
      obtain ⟨_, _, hcons, hspace⟩ := hlexeme.not_isSpace
      cases hcons
      exact hspace
    have hskip : (⟨gap ++ (first :: more) ++ rest, place before⟩ : Cursor).skipSpaces =
        ⟨first :: more ++ rest, place (before ++ gap)⟩ := by
      rw [List.append_assoc]
      apply skipSpaces_eq hgap
      rintro c ⟨⟩
      exact hspace
    have hstep := hread (place (before ++ gap))
    rw [Source.after_place] at hstep
    rw [scan_token (congrArg Cursor.rest hskip) ((congrArg (read first) hskip).trans hstep), hskip,
      ih]

/-- Without a fault there are blanks and lexemes only. -/
theorem laid_of_scan (h : (scan 0 ⟨text, place before⟩).2 = []) :
    Laid before text (scan 0 ⟨text, place before⟩).1 := by
  generalize hn : text.length = n
  induction n using Nat.strong_induction_on generalizing before text with
  | _ n ih =>
    have hgap : ∀ c ∈ text.takeWhile isSpace, isSpace c := mem_takeWhile
    have hsplit := List.takeWhile_append_dropWhile (p := isSpace) (l := text)
    have hskip : (⟨text, place before⟩ : Cursor).skipSpaces =
        ⟨text.dropWhile isSpace, place (before ++ text.takeWhile isSpace)⟩ := by
      rw [Cursor.skipSpaces, Source.after_place]
    by_cases hnil : text.dropWhile isSpace = []
    · rw [scan_done ((congrArg Cursor.rest hskip).trans hnil), hskip]
      rw [hnil, List.append_nil] at hsplit
      rw [hsplit] at hgap ⊢
      exact .done hgap
    · obtain ⟨first, more, kind, ⟨rest, q⟩, hcons, hread⟩ := exists_read_of_scan h (by rwa [hskip])
      obtain ⟨word, hlexeme, hrest, hq⟩ := passes_of_read hcons hread
      rw [scan_token hcons hread] at h ⊢
      rw [hskip] at hrest hq ⊢
      rw [Source.after_place] at hq
      simp only at hrest hq
      subst hq
      rw [hrest, ← List.append_assoc] at hsplit
      have hshorter : rest.length < n := by
        obtain ⟨_, _, rfl, -⟩ := hlexeme.not_isSpace
        rw [← hn, ← hsplit]
        simp only [List.length_append, List.length_cons]
        omega
      have htokens := Laid.token hgap hlexeme (ih _ hshorter h rfl)
      rwa [hsplit] at htokens

theorem laid_of_lex {source : String} (h : (lex source).2 = []) :
    Laid [] source.toList (lex source).1 :=
  laid_of_scan h

theorem Laid.lex_eq (h : Laid [] text tokens) : lex (String.ofList text) = (tokens, []) := by
  rw [lex, String.toList_ofList]
  exact h.scan_eq

end JsonTemplate.Lexer
