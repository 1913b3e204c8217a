import JsonTemplate.Proofs.Lexing.Scanning

/-! Where the tokens of a text stand. Each has a stretch of characters of its own, one behind the
other and with blanks only between them, and its span goes from the first of these to the last. -/

namespace JsonTemplate.Lexer

open Source (place)
open Token (Kind)

/-- A stretch of a text, from its first character up to the one behind its last. -/
structure Range where
  start : Nat
  stop : Nat
  deriving DecidableEq, Repr

namespace Range

def Has (r : Range) (i : Nat) : Prop := r.start ≤ i ∧ i < r.stop

def text (r : Range) (s : List Char) : List Char := (s.take r.stop).drop r.start

end Range

/-- The stretches come one behind the other and have at least one character each. From `start` on
there are only blanks outside them. -/
structure Divides (s : List Char) (start : Nat) (ranges : List Range) : Prop where
  bounds : ∀ r ∈ ranges, start ≤ r.start ∧ r.start < r.stop ∧ r.stop ≤ s.length
  ordered : ranges.Pairwise fun r q => r.stop ≤ q.start
  blank : ∀ i (h : i < s.length), start ≤ i → (∀ r ∈ ranges, ¬r.Has i) → isSpace s[i]

/-- One more stretch in front of the others. -/
theorem Divides.cons {s : List Char} {start : Nat} {r : Range} {ranges : List Range}
    (h : Divides s r.stop ranges) (hstart : start ≤ r.start) (hlength : r.start < r.stop)
    (hstop : r.stop ≤ s.length)
    (hblank : ∀ i (h : i < s.length), start ≤ i → i < r.start → isSpace s[i]) :
    Divides s start (r :: ranges) where
  bounds := by
    refine List.forall_mem_cons.2 ⟨⟨hstart, hlength, hstop⟩, fun q hq => ?_⟩
    obtain ⟨hq, hrest⟩ := h.bounds q hq
    exact ⟨by omega, hrest⟩
  ordered := .cons (fun q hq => (h.bounds q hq).1) h.ordered
  blank i hi hfrom hnone := by
    obtain ⟨hr, hranges⟩ := List.forall_mem_cons.1 hnone
    by_cases hlt : i < r.start
    · exact hblank i hi hfrom hlt
    · exact h.blank i hi (Nat.le_of_not_lt fun hin => hr ⟨Nat.le_of_not_lt hlt, hin⟩) hranges

theorem mem_of_middle {before middle rest : List Char} {i : Nat}
    (h : i < (before ++ middle ++ rest).length) (hstart : before.length ≤ i)
    (hstop : i < (before ++ middle).length) : (before ++ middle ++ rest)[i] ∈ middle := by
  rw [List.getElem_append_left hstop, List.getElem_append_right hstart]
  exact List.getElem_mem _

/-- The token is what the text of the stretch alone is read as, and its span goes from the first
character of the stretch to the last one. -/
structure Holds (s : List Char) (r : Range) (token : Token) : Prop where
  span : token.span = ⟨place (s.take r.start), place (s.take (r.stop - 1))⟩
  faults : (lex (String.ofList (r.text s))).2 = []
  kinds : (lex (String.ofList (r.text s))).1.map Token.kind = [token.kind, .eof]

theorem Lexeme.lex_eq {text rest : List Char} {kind : Kind} (h : Lexeme text kind rest) :
    lex (String.ofList text) =
      ([⟨kind, spanTo (place []) (place text)⟩, endToken (place text)], []) := by
  have hdone : Laid text [] [endToken (place (text ++ []))] := .done nofun
  rw [List.append_nil] at hdone
  have hlaid : Laid [] (text ++ []) [⟨kind, spanTo (place []) (place text)⟩,
      endToken (place text)] := @Laid.token [] [] _ _ _ _ nofun h.alone hdone
  rw [List.append_nil] at hlaid
  exact hlaid.lex_eq

theorem Lexeme.holds {before text rest : List Char} {kind : Kind} (h : Lexeme text kind rest) :
    Holds (before ++ text ++ rest) ⟨before.length, (before ++ text).length⟩
      ⟨kind, spanTo (place before) (place (before ++ text))⟩ := by
  have htext : Range.text ⟨before.length, (before ++ text).length⟩ (before ++ text ++ rest) =
      text := by
    rw [Range.text, List.take_left, List.drop_left]
  refine ⟨?_, ?_, ?_⟩
  · obtain ⟨init, last, rfl, hlast⟩ := h.exists_last_ne_newline
    have hsource : before ++ (init ++ [last]) ++ rest = before ++ init ++ ([last] ++ rest) := by
      simp only [List.append_assoc]
    have hlength : (before ++ (init ++ [last])).length - 1 = (before ++ init).length := by
      simp only [List.length_append, List.length_singleton]
      omega
    simp only [Source.spanTo_place _ _ hlast, hlength]
    rw [hsource, List.take_left, List.append_assoc, List.take_left]
  · rw [htext, h.lex_eq]
  · rw [htext, h.lex_eq]
    rfl

theorem Laid.exists_ranges {before text : List Char} {tokens : List Token}
    (h : Laid before text tokens) :
    ∃ ranges body, tokens = body ++ [endToken (place (before ++ text))] ∧
      (∀ token ∈ body, token.kind ≠ .eof) ∧ Divides (before ++ text) before.length ranges ∧
      List.Forall₂ (Holds (before ++ text)) ranges body := by
  induction h with
  | @done before gap hgap =>
    refine ⟨[], [], rfl, nofun, ⟨nofun, .nil, fun i hi hstart _ => hgap _ ?_⟩, .nil⟩
    rw [List.getElem_append_right hstart]
    exact List.getElem_mem _
  | @token before gap text rest kind tokens hgap hlexeme _ ih =>
    obtain ⟨ranges, body, rfl, hkinds, hdivides, hholds⟩ := ih
    have hsource : before ++ (gap ++ text ++ rest) = before ++ gap ++ text ++ rest := by simp
    rw [hsource]
    refine ⟨_, _, rfl, List.forall_mem_cons.2 ⟨hlexeme.ne_eof, hkinds⟩, ?_,
      .cons hlexeme.holds hholds⟩
    apply Divides.cons hdivides
    · simp
    · obtain ⟨_, _, rfl, -⟩ := hlexeme.not_isSpace
      simp
    · simp
    · intro i hi hstart hstop
      have hlength : i < (before ++ gap ++ (text ++ rest)).length := by simpa using hi
      have hmem := mem_of_middle hlength hstart hstop
      simp only [← List.append_assoc] at hmem
      exact hgap _ hmem

/-- The tokens of a text that is read without a fault stand on stretches of it, one behind the
other, with blanks only between them. The end token comes last, and it alone is right behind the
text. -/
theorem lex_partition {source : String} (h : (lex source).2 = []) :
    ∃ ranges body, (lex source).1 = body ++ [endToken (place source.toList)] ∧
      (∀ token ∈ body, token.kind ≠ .eof) ∧ Divides source.toList 0 ranges ∧
      List.Forall₂ (Holds source.toList) ranges body :=
  (laid_of_lex h).exists_ranges

/-- Two lines with a string that is not ASCII. -/
theorem lex_partition_lines :
    (lex "a\n + 'é∞'").2 = [] ∧
      ∃ ranges body, (lex "a\n + 'é∞'").1 = body ++ [endToken ⟨2, 8⟩] ∧
        (∀ token ∈ body, token.kind ≠ .eof) ∧ Divides "a\n + 'é∞'".toList 0 ranges ∧
        List.Forall₂ (Holds "a\n + 'é∞'".toList) ranges body := by
  have hfaults : (lex "a\n + 'é∞'").2 = [] := by decide +kernel
  have hplace : place "a\n + 'é∞'".toList = ⟨2, 8⟩ := by decide
  rw [← hplace]
  exact ⟨hfaults, lex_partition hfaults⟩

end JsonTemplate.Lexer
