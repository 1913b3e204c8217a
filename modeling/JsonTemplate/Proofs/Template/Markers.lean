import JsonTemplate.Template.Marker

/-! Markers are known by their texts. What is read as a marker depends on what stands behind it
only in how far the marker goes: two markers of the same text have the same expression. -/

namespace JsonTemplate

namespace Marker

variable {w rest rest' cs : List Char} {b : Bool} {n : Nat}

/-- Some text that goes on with closing braces. -/
def closed (w rest : List Char) : List Char := w ++ '}' :: '}' :: rest

theorem closed_cons (c : Char) (w rest : List Char) :
    closed (c :: w) rest = c :: closed w rest := rfl

theorem drop_closed {n : Nat} (h : n ≤ w.length) (rest : List Char) :
    (closed w rest).drop n = closed (w.drop n) rest :=
  List.drop_append_of_le_length h

/-! ### Where an expression ends -/

theorem closing?_blank {c : Char} {s : List Char} (h : Text.isBlank c) :
    closing? (c :: s) = (closing? s).map (· + 1) := by
  simp only [closing?, List.dropWhile_cons, List.takeWhile_cons, h, if_true]
  split <;> simp

theorem closing?_other {c : Char} {s : List Char} (h : ¬Text.isBlank c) :
    closing? (c :: s) = if c = '}' ∧ s.head? = some '}' then some 2 else none := by
  simp only [closing?, List.dropWhile_cons, List.takeWhile_cons, h]
  obtain _ | ⟨second, more⟩ := s
  · simp
  · by_cases hc : c = '}' <;> by_cases hs : second = '}' <;> simp_all

/-- Whether braces close early is decided in front of braces that close. -/
theorem closing?_closed (w rest rest' : List Char) :
    closing? (closed w rest) = closing? (closed w rest') := by
  induction w with
  | nil => rfl
  | cons c w ih =>
    rw [closed_cons, closed_cons]
    by_cases hc : Text.isBlank c
    · rw [closing?_blank hc, closing?_blank hc, ih]
    · rw [closing?_other hc, closing?_other hc]
      cases w <;> rfl

theorem closing?_end {s : List Char} (h : closing? s = some n) :
    ∃ w rest, s = closed w rest ∧ n = w.length + 2 := by
  unfold closing? at h
  split at h
  · next rest hrest =>
    cases h
    refine ⟨s.takeWhile Text.isBlank, rest, ?_, rfl⟩
    rw [closed, ← hrest, List.takeWhile_append_dropWhile]
  · cases h

theorem content?_end {s : List Char} (h : content? s = some (cs, n)) :
    ∃ c w rest, s = closed (c :: w) rest ∧ n = w.length + 3 := by
  induction s generalizing cs n with
  | nil => cases h
  | cons c s ih =>
    rw [content?] at h
    split at h
    · cases h
    · cases hclosing : closing? s with
      | some k =>
        rw [hclosing] at h
        cases h
        obtain ⟨w, rest, rfl, rfl⟩ := closing?_end hclosing
        exact ⟨c, w, rest, rfl, rfl⟩
      | none =>
        simp only [hclosing, Option.map_eq_some_iff, Prod.exists, Prod.mk.injEq] at h
        obtain ⟨cs', k, hcontent, -, rfl⟩ := h
        obtain ⟨c', w, rest, rfl, rfl⟩ := ih hcontent
        exact ⟨c, c' :: w, rest, rfl, rfl⟩

/-- An expression that ends with the braces is the same whatever stands behind them. -/
theorem content?_closed (h : content? (closed w rest) = some (cs, w.length + 2))
    (rest' : List Char) : content? (closed w rest') = some (cs, w.length + 2) := by
  induction w generalizing cs with
  | nil =>
    obtain ⟨c, w, -, -, hlength⟩ := content?_end h
    simp only [List.length_nil] at hlength
    omega
  | cons c w ih =>
    rw [closed_cons, content?] at h ⊢
    by_cases hc : c = '\n'
    · rw [if_pos hc] at h
      cases h
    · rw [if_neg hc] at h ⊢
      rw [closing?_closed w rest' rest]
      cases hclosing : closing? (closed w rest) with
      | some k =>
        rw [hclosing] at h
        exact h
      | none =>
        simp only [hclosing, Option.map_eq_some_iff, Prod.exists, Prod.mk.injEq] at h
        obtain ⟨cs', k, hcontent, rfl, hk⟩ := h
        have hk : k = w.length + 2 := by simpa using hk
        subst hk
        rw [ih hcontent]
        rfl

theorem takeWhile_closed (w rest : List Char) :
    (closed w rest).takeWhile Text.isBlank = w.takeWhile Text.isBlank := by
  induction w with
  | nil => rfl
  | cons c w ih => rw [closed_cons, List.takeWhile_cons, List.takeWhile_cons, ih]

/-- Behind other text, fewer blanks may be left out of the expression. If it ends with the braces
still, it is the same. -/
theorem contentAfter?_closed {blanks : Nat} (hblanks : blanks ≤ w.length)
    (h : contentAfter? (closed w rest) blanks = some (cs, w.length + 2)) (rest' : List Char) :
    ∃ cs' n, contentAfter? (closed w rest') blanks = some (cs', n) ∧
      (n = w.length + 2 → cs' = cs) := by
  induction blanks with
  | zero => exact ⟨cs, _, content?_closed h rest', fun _ => rfl⟩
  | succ blanks ih =>
    have hdrop (other : List Char) :
        (closed w other).drop (blanks + 1) = closed (w.drop (blanks + 1)) other :=
      drop_closed hblanks other
    have hlength : w.length + 2 = blanks + 1 + ((w.drop (blanks + 1)).length + 2) := by
      rw [List.length_drop]
      omega
    rw [contentAfter?, hdrop] at h ⊢
    cases hcontent : content? (closed (w.drop (blanks + 1)) rest) with
    | some found =>
      obtain ⟨cs₁, k⟩ := found
      simp only [hcontent, Option.some.injEq, Prod.mk.injEq] at h
      obtain ⟨rfl, hk⟩ := h
      have hk : k = (w.drop (blanks + 1)).length + 2 := by omega
      subst hk
      rw [content?_closed hcontent rest']
      exact ⟨cs₁, _, rfl, fun _ => rfl⟩
    | none =>
      simp only [hcontent] at h
      cases hother : content? (closed (w.drop (blanks + 1)) rest') with
      | some found =>
        obtain ⟨cs₁, k⟩ := found
        refine ⟨cs₁, _, rfl, fun hk => ?_⟩
        have hk : k = (w.drop (blanks + 1)).length + 2 := by omega
        subst hk
        rw [content?_closed hother rest] at hcontent
        cases hcontent
      | none => exact ih (by omega) h

theorem inside?_closed (h : inside? (closed w rest) = some (cs, w.length + 2))
    (rest' : List Char) :
    ∃ cs' n, inside? (closed w rest') = some (cs', n) ∧ (n = w.length + 2 → cs' = cs) := by
  rw [inside?, takeWhile_closed] at h ⊢
  exact contentAfter?_closed (List.takeWhile_prefix _).length_le h rest'

/-- Text that starts with `s=` does so within what is in front of the closing braces. -/
theorem body?_closed_marked (w rest : List Char) :
    body? (closed ('s' :: '=' :: w) rest) =
      match inside? (closed w rest) with
      | some (cs, n) => some (cs, true, n + 2)
      | none => (inside? (closed ('s' :: '=' :: w) rest)).map fun (cs, n) => (cs, false, n) := rfl

theorem body?_closed_plain (h : ∀ w', w ≠ 's' :: '=' :: w') (rest : List Char) :
    body? (closed w rest) = (inside? (closed w rest)).map fun (cs, n) => (cs, false, n) := by
  obtain _ | ⟨c, _ | ⟨second, w⟩⟩ := w
  · rfl
  · unfold body?
    split
    · next hs =>
      simp [closed] at hs
    · rfl
  · unfold body?
    split
    · next hs =>
      simp only [closed, List.cons_append, List.cons.injEq] at hs
      obtain ⟨rfl, rfl, -⟩ := hs
      exact absurd rfl (h w)
    · rfl

theorem contentAfter?_end {s : List Char} {blanks : Nat} (hblanks : blanks ≤ s.length)
    (h : contentAfter? s blanks = some (cs, n)) :
    ∃ w rest, s = closed w rest ∧ n = w.length + 2 := by
  induction blanks with
  | zero =>
    obtain ⟨c, w, rest, hs, hn⟩ := content?_end h
    exact ⟨c :: w, rest, hs, hn⟩
  | succ blanks ih =>
    rw [contentAfter?] at h
    cases hcontent : content? (s.drop (blanks + 1)) with
    | none =>
      rw [hcontent] at h
      exact ih (by omega) h
    | some found =>
      obtain ⟨cs', k⟩ := found
      rw [hcontent] at h
      cases h
      obtain ⟨c, w, rest, hs, rfl⟩ := content?_end hcontent
      refine ⟨s.take (blanks + 1) ++ c :: w, rest, ?_, ?_⟩
      · rw [closed, List.append_assoc]
        exact (List.take_append_drop (blanks + 1) s).symm.trans (congrArg _ hs)
      · rw [List.length_append, List.length_take, Nat.min_eq_left hblanks, List.length_cons]
        omega

theorem inside?_end {s : List Char} (h : inside? s = some (cs, n)) :
    ∃ w rest, s = closed w rest ∧ n = w.length + 2 :=
  contentAfter?_end (List.takeWhile_prefix _).length_le h

theorem body?_end {s : List Char} (h : body? s = some (cs, b, n)) :
    ∃ w rest, s = closed w rest ∧ n = w.length + 2 := by
  have hplain (hs : (inside? s).map (fun (cs, n) => (cs, false, n)) = some (cs, b, n)) :
      ∃ w rest, s = closed w rest ∧ n = w.length + 2 := by
    simp only [Option.map_eq_some_iff, Prod.exists, Prod.mk.injEq] at hs
    obtain ⟨cs', k, hinside, -, -, rfl⟩ := hs
    exact inside?_end hinside
  unfold body? at h
  split at h
  · next rest =>
    split at h
    · next cs' k hinside =>
      cases h
      obtain ⟨w, rest', rfl, rfl⟩ := inside?_end hinside
      exact ⟨'s' :: '=' :: w, rest', rfl, rfl⟩
    · exact hplain h
  · exact hplain h

/-- The expression and whether its text is asked for, given where the marker ends. -/
theorem body?_closed {cs' : List Char} {b' : Bool}
    (h : body? (closed w rest) = some (cs, b, w.length + 2))
    (h' : body? (closed w rest') = some (cs', b', w.length + 2)) : cs' = cs ∧ b' = b := by
  have hplain (hs : (inside? (closed w rest)).map (fun (cs, n) => (cs, false, n)) =
        some (cs, b, w.length + 2))
      (hs' : (inside? (closed w rest')).map (fun (cs, n) => (cs, false, n)) =
        some (cs', b', w.length + 2)) : cs' = cs ∧ b' = b := by
    simp only [Option.map_eq_some_iff, Prod.exists, Prod.mk.injEq] at hs hs'
    obtain ⟨cs₁, k, hinside, rfl, rfl, rfl⟩ := hs
    obtain ⟨cs₂, k, hinside', rfl, rfl, rfl⟩ := hs'
    obtain ⟨cs₃, n, hfound, hsame⟩ := inside?_closed hinside rest'
    cases hinside'.symm.trans hfound
    exact ⟨hsame rfl, rfl⟩
  by_cases hmarked : ∃ w', w = 's' :: '=' :: w'
  · obtain ⟨w, rfl⟩ := hmarked
    rw [body?_closed_marked] at h h'
    cases hinside : inside? (closed w rest) with
    | some found =>
      obtain ⟨cs₁, k⟩ := found
      simp only [hinside, Option.some.injEq, Prod.mk.injEq, List.length_cons] at h
      obtain ⟨rfl, rfl, hk⟩ := h
      have hk : k = w.length + 2 := by omega
      subst hk
      obtain ⟨cs₂, n, hfound, hsame⟩ := inside?_closed hinside rest'
      simp only [hfound, Option.some.injEq, Prod.mk.injEq, List.length_cons] at h'
      obtain ⟨rfl, rfl, hn⟩ := h'
      exact ⟨hsame (by omega), rfl⟩
    | none =>
      rw [hinside] at h
      cases hinside' : inside? (closed w rest') with
      | some found =>
        obtain ⟨cs₁, k⟩ := found
        simp only [hinside', Option.some.injEq, Prod.mk.injEq, List.length_cons] at h'
        obtain ⟨rfl, rfl, hk⟩ := h'
        have hk : k = w.length + 2 := by omega
        subst hk
        obtain ⟨cs₂, n, hfound, -⟩ := inside?_closed hinside' rest
        rw [hinside] at hfound
        cases hfound
      | none =>
        rw [hinside'] at h'
        exact hplain h h'
  · have hother : ∀ w', w ≠ 's' :: '=' :: w' := fun w' hw => hmarked ⟨w', hw⟩
    rw [body?_closed_plain hother] at h h'
    exact hplain h h'

/-! ### Markers of the same text -/

/-- A marker is what stands between its braces. -/
theorem at?_eq_some {s : List Char} {m : Marker} (h : at? s = some m) :
    ∃ w rest, s = '{' :: '{' :: closed w rest ∧ m.raw = '{' :: '{' :: closed w [] ∧
      body? (closed w rest) = some (m.source, m.asText, w.length + 2) := by
  unfold at? at h
  split at h
  · next rest =>
    simp only [Option.map_eq_some_iff, Prod.exists] at h
    obtain ⟨cs, b, n, hbody, rfl⟩ := h
    obtain ⟨w, rest', rfl, rfl⟩ := body?_end hbody
    refine ⟨w, rest', rfl, ?_, hbody⟩
    simp only [closed, List.take_succ_cons]
    have happend : w ++ '}' :: '}' :: rest' = (w ++ ['}', '}']) ++ rest' := by simp
    rw [happend, List.take_left' (by simp)]
  · cases h

theorem eq_of_raw {s t : List Char} {m m' : Marker} (h : at? s = some m) (h' : at? t = some m')
    (hraw : m.raw = m'.raw) : m = m' := by
  obtain ⟨w, rest, -, hm, hbody⟩ := at?_eq_some h
  obtain ⟨w', rest', -, hm', hbody'⟩ := at?_eq_some h'
  have hw : w = w' := by
    rw [hm, hm'] at hraw
    simpa [closed] using hraw
  subst hw
  obtain ⟨hsource, hasText⟩ := body?_closed hbody' hbody
  obtain ⟨raw, source, asText⟩ := m
  obtain ⟨raw', source', asText'⟩ := m'
  simp only at hraw hsource hasText
  rw [hraw, hsource, hasText]

/-- A marker stands at the start of the text that it is read from. -/
theorem prefix_of_at? {s : List Char} {m : Marker} (h : at? s = some m) : m.raw <+: s := by
  obtain ⟨w, rest, rfl, hraw, -⟩ := at?_eq_some h
  rw [hraw]
  exact ⟨rest, by simp [closed]⟩

theorem raw_ne_nil_of_at? {s : List Char} {m : Marker} (h : at? s = some m) : m.raw ≠ [] := by
  obtain ⟨w, rest, -, hraw, -⟩ := at?_eq_some h
  rw [hraw]
  exact List.cons_ne_nil _ _

end Marker

namespace Segment

theorem ofText_char {c : Char} {rest : List Char} (h : Marker.at? (c :: rest) = none) :
    ofText (c :: rest) = .char c :: ofText rest := by
  rw [ofText, h]

/-- Behind a marker, the rest of the text is read on its own. -/
theorem ofText_marker {m : Marker} {rest : List Char} (h : Marker.at? (m.raw ++ rest) = some m) :
    ofText (m.raw ++ rest) = .marker m :: ofText rest := by
  obtain ⟨c, more, hraw⟩ := List.exists_cons_of_ne_nil (Marker.raw_ne_nil_of_at? h)
  rw [hraw, List.cons_append] at h ⊢
  rw [ofText, h]
  simp [hraw]

/-- The markers of a text are read off the ends of it. -/
theorem at?_of_mem_markers {s : List Char} {m : Marker} (h : m ∈ markers (ofText s)) :
    ∃ t, Marker.at? t = some m := by
  induction s using ofText.induct with
  | case1 => simp [ofText, markers] at h
  | case2 c rest found hfound ih =>
    rw [ofText, hfound] at h
    rcases List.mem_cons.1 h with rfl | h
    · exact ⟨c :: rest, hfound⟩
    · exact ih h
  | case3 c rest hnone ih =>
    rw [ofText, hnone] at h
    exact ih h

/-- Two markers of the same text are the same. -/
theorem eq_of_text {s t : List Char} {m m' : Marker} (h : m ∈ markers (ofText s))
    (h' : m' ∈ markers (ofText t)) (htext : m.text = m'.text) : m = m' := by
  obtain ⟨s', hs⟩ := at?_of_mem_markers h
  obtain ⟨t', ht⟩ := at?_of_mem_markers h'
  exact Marker.eq_of_raw hs ht (String.ofList_injective htext)

end Segment

end JsonTemplate
