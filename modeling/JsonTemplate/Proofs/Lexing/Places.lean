import Mathlib.Data.List.DropRight
import JsonTemplate.Expr.Lexer

/-! Places, by the text in front of them. The line counts the newlines in that text, the column the
characters behind the last of these. Reading keeps count of both as it goes, and its count is
right wherever it is. -/

namespace JsonTemplate

namespace Position

theorem lt_trans {a b c : Position} (hab : a < b) (hbc : b < c) : a < c := by
  rw [lt_def] at *
  omega

theorem le_of_lt {a b : Position} (h : a < b) : a ≤ b := by
  rw [le_def]
  rw [lt_def] at h
  omega

theorem le_refl (a : Position) : a ≤ a := by
  rw [le_def]
  omega

theorem le_trans {a b c : Position} (hab : a ≤ b) (hbc : b ≤ c) : a ≤ c := by
  rw [le_def] at *
  omega

theorem lt_of_le_of_lt {a b c : Position} (hab : a ≤ b) (hbc : b < c) : a < c := by
  rw [lt_def] at *
  rw [le_def] at hab
  omega

theorem lt_of_lt_of_le {a b c : Position} (hab : a < b) (hbc : b ≤ c) : a < c := by
  rw [lt_def] at *
  rw [le_def] at hbc
  omega

theorem lt_advance (p : Position) (c : Char) : p < p.advance c := by
  rw [lt_def, advance]
  split
  · exact .inl (Nat.lt_succ_self _)
  · exact .inr ⟨rfl, Nat.lt_succ_self _⟩

end Position

namespace Source

/-- The place right behind a text. -/
def place (before : List Char) : Position :=
  ⟨1 + before.count '\n', 1 + (before.rtakeWhile (· ≠ '\n')).length⟩

theorem place_concat (before : List Char) (c : Char) :
    place (before ++ [c]) = (place before).advance c := by
  unfold place Position.advance
  by_cases hc : c = '\n'
  · rw [if_pos hc, List.rtakeWhile_concat_neg _ _ _ (by simpa using hc), hc]
    simp [Nat.add_assoc]
  · rw [if_neg hc, List.rtakeWhile_concat_pos _ _ _ (by simpa using hc)]
    simp [hc, Nat.add_assoc]

/-- Counting on from a place that is right gives one that is right. -/
theorem after_place (before text : List Char) :
    Lexer.after (place before) text = place (before ++ text) := by
  induction text generalizing before with
  | nil => rw [List.append_nil]; rfl
  | cons c rest ih =>
    have hstep : Lexer.after (place before) (c :: rest) =
        Lexer.after ((place before).advance c) rest := rfl
    rw [hstep, ← place_concat, ih, List.append_assoc, List.singleton_append]

theorem place_lt (before : List Char) {text : List Char} (h : text ≠ []) :
    place before < place (before ++ text) := by
  induction text using List.reverseRecOn with
  | nil => exact absurd rfl h
  | append_singleton init c ih =>
    rw [← List.append_assoc, place_concat]
    cases init with
    | nil => rw [List.append_nil]; exact Position.lt_advance _ c
    | cons => exact Position.lt_trans (ih (List.cons_ne_nil _ _)) (Position.lt_advance _ c)

theorem place_le (before text : List Char) : place before ≤ place (before ++ text) := by
  cases text with
  | nil => rw [List.append_nil]; exact Position.le_refl _
  | cons => exact Position.le_of_lt (place_lt before (List.cons_ne_nil _ _))

/-- A span ends at its last character, unless that is a newline. -/
theorem spanTo_place (before init : List Char) {last : Char} (h : last ≠ '\n') :
    Lexer.spanTo (place before) (place (before ++ (init ++ [last]))) =
      ⟨place before, place (before ++ init)⟩ := by
  have hcolumn : 1 ≤ (place (before ++ init)).column := Nat.le_add_right 1 _
  rw [← List.append_assoc, place_concat, Position.advance, if_neg h, Lexer.spanTo,
    Nat.add_sub_cancel, Nat.max_eq_right hcolumn]

example : place "ab\nc".toList = ⟨2, 2⟩ := by decide

end Source

end JsonTemplate
