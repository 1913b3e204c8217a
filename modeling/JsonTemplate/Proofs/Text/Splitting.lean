import JsonTemplate.Text.Search

/-! The pieces between separators. They give the text back with the separator between them, and the
separator is in none of them: an occurrence inside a piece would have been found before the piece
ended, even where occurrences overlap. A separator of one character is found wherever this character
stands. -/

namespace JsonTemplate.Text

variable {sep text rest piece : List Char} {c : Char} {parts : List (List Char)}

theorem extendHead_eq (h : parts ≠ []) : extendHead c parts = parts.modifyHead (c :: ·) := by
  cases parts with
  | nil => exact absurd rfl h
  | cons piece rest => rfl

theorem intercalate_extendHead (h : parts ≠ []) :
    sep.intercalate (extendHead c parts) = c :: sep.intercalate parts := by
  cases parts with
  | nil => exact absurd rfl h
  | cons piece rest => cases rest <;> simp [extendHead]

section Steps
variable (hs : sep ≠ [])
include hs

theorem splitOn_nil : splitOn sep hs [] = [[]] := by rw [splitOn]

theorem splitOn_separator (rest : List Char) :
    splitOn sep hs (sep ++ rest) = [] :: splitOn sep hs rest := by
  obtain ⟨first, more, rfl⟩ := List.exists_cons_of_ne_nil hs
  have hprefix : (first :: more).isPrefixOf (first :: (more ++ rest)) := by
    rw [List.isPrefixOf_iff_prefix]
    exact List.prefix_append (first :: more) rest
  rw [List.cons_append, splitOn, if_pos hprefix, ← List.cons_append, List.drop_left]

theorem splitOn_char (h : ¬sep <+: c :: rest) :
    splitOn sep hs (c :: rest) = extendHead c (splitOn sep hs rest) := by
  rw [splitOn, if_neg (mt List.isPrefixOf_iff_prefix.1 h)]

/-- Induction over a text as it is split: behind a separator if it starts with one, and behind its
first character otherwise. -/
theorem induction_splitOn {P : List Char → Prop} (nil : P [])
    (separator : ∀ rest, P rest → P (sep ++ rest))
    (char : ∀ c rest, ¬sep <+: c :: rest → P rest → P (c :: rest)) (text : List Char) : P text := by
  fun_induction splitOn sep hs text with
  | case1 => exact nil
  | case2 c rest hprefix ih =>
    obtain ⟨behind, hbehind⟩ := List.isPrefixOf_iff_prefix.1 hprefix
    rw [← hbehind, List.drop_left] at ih
    rw [← hbehind]
    exact separator behind ih
  | case3 c rest hprefix ih => exact char c rest (mt List.isPrefixOf_iff_prefix.2 hprefix) ih

end Steps

/-! ### What the pieces are -/

section Pieces
variable {hs : sep ≠ []}

theorem intercalate_splitOn (hs : sep ≠ []) (text : List Char) :
    sep.intercalate (splitOn sep hs text) = text := by
  induction text using induction_splitOn hs with
  | nil => rw [splitOn_nil, List.intercalate_singleton]
  | separator rest ih =>
    rw [splitOn_separator, List.intercalate_cons_of_ne_nil (splitOn_ne_nil sep hs rest), ih,
      List.nil_append]
  | char c rest h ih =>
    rw [splitOn_char hs h, intercalate_extendHead (splitOn_ne_nil sep hs rest), ih]

/-- The text starts with its first piece. -/
theorem prefix_of_splitOn {first : List Char} {more : List (List Char)}
    (h : splitOn sep hs text = first :: more) : first <+: text := by
  rw [← intercalate_splitOn hs text, h]
  cases more with
  | nil => simp
  | cons second more =>
    rw [List.intercalate_cons_cons, List.append_assoc]
    exact List.prefix_append _ _

/-- No piece contains the separator. -/
theorem not_infix_of_mem_splitOn (h : piece ∈ splitOn sep hs text) : ¬sep <:+: piece := by
  have hnil : ¬sep <:+: [] := mt List.infix_nil.1 hs
  induction text using induction_splitOn hs generalizing piece with
  | nil =>
    rw [splitOn_nil, List.mem_singleton] at h
    rwa [h]
  | separator rest ih =>
    rw [splitOn_separator] at h
    rcases List.mem_cons.1 h with rfl | h
    · exact hnil
    · exact ih h
  | char c rest hprefix ih =>
    obtain ⟨first, more, hfirst⟩ := List.exists_cons_of_ne_nil (splitOn_ne_nil sep hs rest)
    rw [splitOn_char hs hprefix, hfirst] at h
    rw [hfirst] at ih
    rcases List.mem_cons.1 h with rfl | h
    · rw [List.infix_cons_iff]
      rintro (hstart | hinside)
      · -- the text itself would start with the separator
        exact hprefix (hstart.trans ((List.prefix_cons_inj c).2 (prefix_of_splitOn hfirst)))
      · exact ih List.mem_cons_self hinside
    · exact ih (List.mem_cons_of_mem _ h)

/-- There is more than one piece exactly if the text contains the separator. -/
theorem one_lt_length_splitOn : 1 < (splitOn sep hs text).length ↔ sep <:+: text := by
  induction text using induction_splitOn hs with
  | nil => simp [splitOn_nil, hs]
  | separator rest ih =>
    have hpos := List.length_pos_iff.2 (splitOn_ne_nil sep hs rest)
    rw [splitOn_separator, List.length_cons]
    exact iff_of_true (by omega) (List.prefix_append sep rest).isInfix
  | char c rest hprefix ih =>
    rw [splitOn_char hs hprefix, extendHead_eq (splitOn_ne_nil sep hs rest),
      List.length_modifyHead, ih, List.infix_cons_iff, or_iff_right hprefix]

end Pieces

/-! ### Separators of one character -/

/-- A character that separates is searched for as the library does it. -/
theorem splitOn_singleton (c : Char) (text : List Char) :
    splitOn [c] (List.cons_ne_nil c []) text = text.splitOn c := by
  induction text with
  | nil => rw [splitOn_nil, List.splitOn_nil]
  | cons d rest ih =>
    rw [List.splitOn_cons_eq_if_modifyHead, ← ih]
    by_cases h : d = c
    · rw [if_pos (beq_iff_eq.2 h), h]
      exact splitOn_separator _ rest
    · have hprefix : ¬[c] <+: d :: rest := by
        rw [List.prefix_cons_iff]
        simp [Ne.symm h]
      rw [if_neg (mt beq_iff_eq.1 h), splitOn_char _ hprefix,
        extendHead_eq (splitOn_ne_nil _ _ rest)]

theorem splitOn_intercalate {xs : List (List Char)} (hne : xs ≠ []) (h : ∀ x ∈ xs, c ∉ x) :
    splitOn [c] (List.cons_ne_nil c []) ([c].intercalate xs) = xs := by
  rw [splitOn_singleton, List.splitOn_intercalate c h hne]

/-! ### Texts -/

section Texts
variable {s t : String}

theorem pieces_empty (t : String) : pieces "" t = t.toList.map fun c => String.ofList [c] :=
  dif_pos rfl

theorem pieces_of_ne_nil (hs : s.toList ≠ []) (t : String) :
    pieces s t = (splitOn s.toList hs t.toList).map String.ofList := dif_neg hs

theorem intercalate_chars (text : List Char) : [].intercalate (text.map fun c => [c]) = text := by
  induction text with
  | nil => rfl
  | cons c rest ih =>
    cases rest with
    | nil => rfl
    | cons d rest =>
      rw [List.map_cons] at ih
      rw [List.map_cons, List.map_cons, List.intercalate_cons_cons, ih]
      rfl

/-- The pieces give the text back, also where they are its characters. -/
theorem intercalate_pieces (s t : String) : s.intercalate (pieces s t) = t := by
  apply String.toList_injective
  rw [String.toList_intercalate]
  by_cases hs : s.toList = []
  · rw [String.toList_eq_nil_iff] at hs
    subst hs
    simpa [pieces_empty, Function.comp_def] using intercalate_chars t.toList
  · simpa [pieces_of_ne_nil hs, Function.comp_def] using intercalate_splitOn hs t.toList

theorem not_infix_of_mem_pieces {p : String} (hs : s.toList ≠ []) (h : p ∈ pieces s t) :
    ¬s.toList <:+: p.toList := by
  rw [pieces_of_ne_nil hs] at h
  obtain ⟨piece, hpiece, rfl⟩ := List.mem_map.1 h
  rw [String.toList_ofList]
  exact not_infix_of_mem_splitOn hpiece

theorem one_lt_length_pieces (hs : s.toList ≠ []) :
    1 < (pieces s t).length ↔ s.toList <:+: t.toList := by
  rw [pieces_of_ne_nil hs, List.length_map, one_lt_length_splitOn]

/-- Texts without a character are the pieces between its occurrences. -/
theorem pieces_intercalate {xs : List String} (hne : xs ≠ []) (h : ∀ x ∈ xs, c ∉ x.toList) :
    pieces (String.singleton c) ((String.singleton c).intercalate xs) = xs := by
  have hs : (String.singleton c).toList = [c] := String.toList_singleton c
  have hsplit : splitOn [c] (List.cons_ne_nil c []) ([c].intercalate (xs.map String.toList)) =
      xs.map String.toList :=
    splitOn_intercalate (mt List.map_eq_nil_iff.1 hne) (List.forall_mem_map.2 h)
  rw [pieces_of_ne_nil (by simp)]
  simp only [String.toList_intercalate, hs, hsplit, List.map_map, Function.comp_def,
    String.ofList_toList, List.map_id']

end Texts

end JsonTemplate.Text
