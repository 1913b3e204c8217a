import JsonTemplate.Proofs.Text.Runs
import JsonTemplate.Text.Blank

/-! Texts without the blanks at their ends. What is left starts and ends with other characters, and
there is nothing around it but blanks. -/

namespace JsonTemplate.Text

variable {s : List Char} {c : Char}

theorem dropWhile_of_trimChars (h : trimChars s = s) : s.dropWhile isBlank = s := by
  apply (List.dropWhile_suffix isBlank).eq_of_length_le
  have hlength := (List.dropWhile_suffix isBlank (l := (s.dropWhile isBlank).reverse)).length_le
  rw [List.length_reverse, ← List.length_reverse, ← trimChars, h] at hlength
  exact hlength

theorem trimChars_of_trim {t : String} (h : trim t = t) : trimChars t.toList = t.toList := by
  rw [← String.toList_ofList (l := trimChars t.toList)]
  exact congrArg String.toList h

theorem not_isBlank_head (h : trimChars s = s) (hc : s.head? = some c) : ¬isBlank c := by
  rw [← dropWhile_of_trimChars h] at hc
  exact head?_dropWhile hc

theorem not_isBlank_last (h : trimChars s = s) (hc : s.getLast? = some c) : ¬isBlank c := by
  rw [trimChars, dropWhile_of_trimChars h] at h
  rw [← h, List.getLast?_reverse] at hc
  exact head?_dropWhile hc

/-- Nothing but blanks is taken off. -/
theorem exists_trimChars (s : List Char) :
    ∃ before after, s = before ++ (trimChars s ++ after) ∧ (∀ c ∈ before, isBlank c) ∧
      ∀ c ∈ after, isBlank c := by
  refine ⟨s.takeWhile isBlank, ((s.dropWhile isBlank).reverse.takeWhile isBlank).reverse, ?_,
    mem_takeWhile, fun c hc => mem_takeWhile c (List.mem_reverse.1 hc)⟩
  rw [trimChars, ← List.reverse_append, List.takeWhile_append_dropWhile, List.reverse_reverse,
    List.takeWhile_append_dropWhile]

/-- A text without blanks stays as it is. -/
theorem trimChars_eq_self (h : ∀ c ∈ s, ¬isBlank c) : trimChars s = s := by
  have hkeep (t : List Char) (ht : ∀ c ∈ t, ¬isBlank c) : t.dropWhile isBlank = t := by
    cases t with
    | nil => rfl
    | cons c rest => exact List.dropWhile_cons_of_neg (ht c List.mem_cons_self)
  rw [trimChars, hkeep s h, hkeep s.reverse fun c hc => h c (List.mem_reverse.1 hc),
    List.reverse_reverse]

end JsonTemplate.Text
