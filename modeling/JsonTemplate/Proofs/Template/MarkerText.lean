import JsonTemplate.Proofs.Template.Markers

/-! What a marker is, apart from how markers are looked for. A text is read with a marker among its
pieces exactly if a marker stands anywhere in it. -/

namespace JsonTemplate

/-- The text of a marker: an expression on one line between double braces, with blanks around it,
and with or without `s=` behind the opening braces. -/
inductive MarkerText : List Char → Prop where
  | mk {mark before inner after : List Char} : mark = [] ∨ mark = ['s', '='] →
    (∀ c ∈ before, Text.isBlank c) → inner ≠ [] → '\n' ∉ inner →
    (∀ c ∈ after, Text.isBlank c) →
    MarkerText ('{' :: '{' :: (mark ++ (before ++ (inner ++ (after ++ ['}', '}'])))))

/-- A marker stands somewhere in the text. -/
def HasMarker (s : List Char) : Prop := ∃ m, MarkerText m ∧ m <:+: s

namespace Marker

variable {s : List Char}

/-! ### What is read of a marker -/

/-- Nothing but blanks stands in front of closing braces. -/
def Closes (s : List Char) : Prop := ∃ w rest, (∀ c ∈ w, Text.isBlank c) ∧ s = closed w rest

/-- Some text on one line stands in front of blanks and closing braces. -/
def HasContent (s : List Char) : Prop :=
  ∃ inner t, inner ≠ [] ∧ '\n' ∉ inner ∧ Closes t ∧ s = inner ++ t

/-- The text goes on with blanks and an expression. -/
def HasInside (s : List Char) : Prop :=
  ∃ before t, (∀ c ∈ before, Text.isBlank c) ∧ HasContent t ∧ s = before ++ t

theorem isSome_closing? : (closing? s).isSome ↔ Closes s := by
  induction s with
  | nil =>
    constructor
    · intro h
      cases h
    · rintro ⟨_ | ⟨c, w⟩, rest, -, h⟩ <;> cases h
  | cons c s ih =>
    by_cases hc : Text.isBlank c
    · rw [closing?_blank hc, Option.isSome_map, ih]
      constructor
      · rintro ⟨w, rest, hw, rfl⟩
        exact ⟨c :: w, rest, List.forall_mem_cons.2 ⟨hc, hw⟩, rfl⟩
      · rintro ⟨_ | ⟨b, w⟩, rest, hw, h⟩
        · cases h
          exact absurd hc (by decide)
        · cases h
          exact ⟨w, rest, (List.forall_mem_cons.1 hw).2, rfl⟩
    · rw [closing?_other hc]
      constructor
      · intro h
        split at h
        · next hbraces =>
          obtain ⟨rfl, hhead⟩ := hbraces
          obtain ⟨rest, rfl⟩ := List.head?_eq_some_iff.1 hhead
          exact ⟨[], rest, List.forall_mem_nil _, rfl⟩
        · cases h
      · rintro ⟨_ | ⟨b, w⟩, rest, hw, h⟩
        · cases h
          rfl
        · cases h
          exact absurd (List.forall_mem_cons.1 hw).1 hc

theorem content?_cons {c : Char} (h : c ≠ '\n') :
    (content? (c :: s)).isSome ↔ (closing? s).isSome ∨ (content? s).isSome := by
  rw [content?, if_neg h]
  cases closing? s with
  | none => simp
  | some n => simp

theorem isSome_content? : (content? s).isSome ↔ HasContent s := by
  induction s with
  | nil =>
    constructor
    · intro h
      cases h
    · rintro ⟨_ | ⟨c, inner⟩, t, hne, -, -, h⟩
      · exact absurd rfl hne
      · cases h
  | cons c s ih =>
    by_cases hc : c = '\n'
    · rw [content?, if_pos hc]
      constructor
      · intro h
        cases h
      · rintro ⟨_ | ⟨b, inner⟩, t, hne, hline, -, h⟩
        · exact absurd rfl hne
        · cases h
          exact absurd (hc ▸ List.mem_cons_self) hline
    rw [content?_cons hc, isSome_closing?, ih]
    constructor
    · rintro (hclose | ⟨inner, t, hne, hline, hclose, rfl⟩)
      · exact ⟨[c], s, List.cons_ne_nil _ _, by simpa using Ne.symm hc, hclose, rfl⟩
      · exact ⟨c :: inner, t, List.cons_ne_nil _ _, by simpa [hline] using Ne.symm hc, hclose, rfl⟩
    · rintro ⟨_ | ⟨b, inner⟩, t, hne, hline, hclose, h⟩
      · exact absurd rfl hne
      · cases h
        -- The expression may end here, or go on with the next character.
        cases inner with
        | nil => exact .inl hclose
        | cons next inner =>
          exact .inr ⟨next :: inner, t, List.cons_ne_nil _ _,
            fun h => hline (List.mem_cons_of_mem c h), hclose, rfl⟩

theorem isSome_contentAfter? {blanks : Nat} :
    (contentAfter? s blanks).isSome ↔ ∃ n ≤ blanks, (content? (s.drop n)).isSome := by
  induction blanks with
  | zero => simp [contentAfter?]
  | succ blanks ih =>
    rw [contentAfter?]
    cases hcontent : content? (s.drop (blanks + 1)) with
    | some found => exact ⟨fun _ => ⟨blanks + 1, Nat.le_refl _, by rw [hcontent]; rfl⟩, fun _ => rfl⟩
    | none =>
      rw [ih]
      constructor
      · rintro ⟨n, hn, h⟩
        exact ⟨n, Nat.le_succ_of_le hn, h⟩
      · rintro ⟨n, hn, h⟩
        rcases Nat.le_or_eq_of_le_succ hn with hn | rfl
        · exact ⟨n, hn, h⟩
        · rw [hcontent] at h
          cases h

theorem isSome_inside? : (inside? s).isSome ↔ HasInside s := by
  simp only [inside?, isSome_contentAfter?, isSome_content?]
  constructor
  · rintro ⟨n, hn, hcontent⟩
    refine ⟨s.take n, s.drop n, ?_, hcontent, (List.take_append_drop n s).symm⟩
    have hstart : s.take n <+: s.takeWhile Text.isBlank :=
      List.prefix_of_prefix_length_le (List.take_prefix n s) (List.takeWhile_prefix _)
        (Nat.le_trans (List.length_take_le n s) hn)
    exact fun c hc => List.all_eq_true.1 List.all_takeWhile c (hstart.subset hc)
  · rintro ⟨before, t, hbefore, hcontent, rfl⟩
    refine ⟨before.length, ?_, by rwa [List.drop_left]⟩
    rw [List.takeWhile_append_of_pos hbefore, List.length_append]
    exact Nat.le_add_right _ _

theorem isSome_body? :
    (body? s).isSome ↔ ∃ mark t, (mark = [] ∨ mark = ['s', '=']) ∧ HasInside t ∧ s = mark ++ t := by
  have hplain (f : List Char × Nat → List Char × Bool × Nat) :
      ((inside? s).map f).isSome ↔ HasInside s := by
    rw [Option.isSome_map, isSome_inside?]
  constructor
  · intro h
    unfold body? at h
    split at h
    · next rest =>
      cases hinside : inside? rest with
      | some found =>
        exact ⟨['s', '='], rest, .inr rfl, isSome_inside?.1 (by rw [hinside]; rfl), rfl⟩
      | none =>
        simp only [hinside] at h
        exact ⟨[], _, .inl rfl, (hplain _).1 h, rfl⟩
    · exact ⟨[], s, .inl rfl, (hplain _).1 h, rfl⟩
  · rintro ⟨mark, t, rfl | rfl, hinside, rfl⟩
    · unfold body?
      split
      · next rest =>
        cases inside? rest with
        | some found => rfl
        | none => exact (hplain _).2 hinside
      · exact (hplain _).2 hinside
    · obtain ⟨found, hfound⟩ := Option.isSome_iff_exists.1 (isSome_inside?.2 hinside)
      simp only [List.cons_append, List.nil_append, body?, hfound]
      rfl

/-- A text starts with a marker if it is read so. -/
theorem isSome_at? : (at? s).isSome ↔ ∃ m, MarkerText m ∧ m <+: s := by
  constructor
  · intro h
    unfold at? at h
    split at h
    · next rest =>
      rw [Option.isSome_map] at h
      obtain ⟨mark, t, hmark, hinside, rfl⟩ := isSome_body?.1 h
      obtain ⟨before, t, hbefore, hcontent, rfl⟩ := hinside
      obtain ⟨inner, t, hne, hline, hclose, rfl⟩ := hcontent
      obtain ⟨after, rest, hafter, rfl⟩ := hclose
      exact ⟨_, .mk hmark hbefore hne hline hafter, rest, by simp [closed]⟩
    · cases h
  · rintro ⟨m, hm, rest, rfl⟩
    cases hm with
    | @mk mark before inner after hmark hbefore hne hline hafter =>
      have hbody : (body? (mark ++ (before ++ (inner ++ closed after rest)))).isSome :=
        isSome_body?.2 ⟨mark, _, hmark, ⟨before, _, hbefore,
          ⟨inner, _, hne, hline, ⟨after, rest, hafter, rfl⟩, rfl⟩, rfl⟩, rfl⟩
      simpa [at?, closed] using hbody

end Marker

/-- There is a marker among the pieces of a text exactly if one stands in it. -/
theorem Segment.markers_eq_nil_iff {s : List Char} : markers (ofText s) = [] ↔ ¬HasMarker s := by
  unfold HasMarker
  induction s using ofText.induct with
  | case1 =>
    refine ⟨?_, fun _ => by rw [ofText]; rfl⟩
    rintro - ⟨m, ⟨⟩, h⟩
    cases List.infix_nil.1 h
  | case2 c rest found hfound ih =>
    obtain ⟨m, hm, hstart⟩ := Marker.isSome_at?.1 (by rw [hfound]; rfl)
    constructor
    · intro h
      rw [ofText, hfound] at h
      cases h
    · intro h
      exact absurd ⟨m, hm, hstart.isInfix⟩ h
  | case3 c rest hnone ih =>
    have hhere : ¬∃ m, MarkerText m ∧ m <+: c :: rest := by
      rw [← Marker.isSome_at?, hnone]
      exact Bool.false_ne_true
    rw [ofText, hnone]
    refine ih.trans (not_congr ?_)
    constructor
    · rintro ⟨m, hm, h⟩
      exact ⟨m, hm, h.trans (List.suffix_cons c rest).isInfix⟩
    · rintro ⟨m, hm, h⟩
      rcases List.infix_cons_iff.1 h with h | h
      · exact absurd ⟨m, hm, h⟩ hhere
      · exact ⟨m, hm, h⟩

end JsonTemplate
