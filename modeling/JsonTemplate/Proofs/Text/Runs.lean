/-! Runs of characters of a kind at the start of a text. A run ends where the text does or a
character of another kind comes. -/

namespace JsonTemplate

variable {test : Char → Bool} {run rest s : List Char}

/-- Characters of a kind are read up to the first of another kind. -/
theorem takeWhile_append_stop (hrun : ∀ c ∈ run, test c)
    (hstop : ∀ c, rest.head? = some c → ¬test c) : (run ++ rest).takeWhile test = run := by
  rw [List.takeWhile_append_of_pos hrun]
  cases rest with
  | nil => exact List.append_nil run
  | cons c rest => simp [hstop c rfl]

theorem dropWhile_append_stop (hrun : ∀ c ∈ run, test c)
    (hstop : ∀ c, rest.head? = some c → ¬test c) : (run ++ rest).dropWhile test = rest := by
  rw [List.dropWhile_append_of_pos hrun]
  cases rest with
  | nil => rfl
  | cons c rest => simp [hstop c rfl]

theorem mem_takeWhile : ∀ c ∈ s.takeWhile test, test c :=
  List.all_eq_true.1 List.all_takeWhile

/-- A run ends where it did if the text goes on with a character of another kind. -/
theorem runs_append (hstop : ∀ c, (s.dropWhile test ++ rest).head? = some c → ¬test c) :
    (s ++ rest).takeWhile test = s.takeWhile test ∧
      (s ++ rest).dropWhile test = s.dropWhile test ++ rest := by
  have hsplit : s ++ rest = s.takeWhile test ++ (s.dropWhile test ++ rest) := by
    rw [← List.append_assoc, List.takeWhile_append_dropWhile]
  rw [hsplit]
  exact ⟨takeWhile_append_stop mem_takeWhile hstop, dropWhile_append_stop mem_takeWhile hstop⟩

/-- The character behind a run is of another kind. -/
theorem head?_dropWhile {c : Char} (h : (s.dropWhile test).head? = some c) : ¬test c := by
  have hstop := List.head?_dropWhile_not test s
  rw [h] at hstop
  simpa using hstop

theorem take_length_takeWhile (test : Char → Bool) (s : List Char) :
    s.take (s.takeWhile test).length = s.takeWhile test :=
  (List.prefix_iff_eq_take.1 (List.takeWhile_prefix test)).symm

theorem drop_length_takeWhile (test : Char → Bool) (s : List Char) :
    s.drop (s.takeWhile test).length = s.dropWhile test := by
  have hsplit : s = s.takeWhile test ++ s.dropWhile test :=
    List.takeWhile_append_dropWhile.symm
  exact (congrArg (List.drop _) hsplit).trans List.drop_left

/-- A run in a text that is cut off. -/
theorem length_takeWhile_take (test : Char → Bool) (s : List Char) (n : Nat) :
    ((s.take n).takeWhile test).length = min n (s.takeWhile test).length := by
  rw [← List.take_takeWhile, List.length_take]

end JsonTemplate
