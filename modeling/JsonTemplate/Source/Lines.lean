import JsonTemplate.Text.Search

/-! The lines of a text. A line ends before a newline, and a carriage return right before the
newline does not belong to it either. -/

namespace JsonTemplate.Source

/-- The parts of a text between newlines. There is one more of them than of newlines. -/
def lines : List Char → List (List Char)
  | [] => [[]]
  | c :: rest => if c = '\n' then [] :: lines rest else Text.extendHead c (lines rest)

theorem lines_ne_nil (s : List Char) : lines s ≠ [] := by
  cases s with
  | nil => simp [lines]
  | cons c rest =>
    unfold lines
    split
    · simp
    · cases lines rest <;> simp [Text.extendHead]

theorem length_lines (s : List Char) : (lines s).length = s.count '\n' + 1 := by
  induction s with
  | nil => rfl
  | cons c rest ih =>
    unfold lines
    split
    · next h => simp [h, ih]
    · next h =>
      have : (Text.extendHead c (lines rest)).length = (lines rest).length := by
        cases hl : lines rest with
        | nil => exact absurd hl (lines_ne_nil rest)
        | cons l ls => rfl
      rw [this, ih, List.count_cons_of_ne h]

/-- A line without a carriage return at its end. -/
def dropReturn (line : List Char) : List Char :=
  if line.getLast? = some '\r' then line.dropLast else line

/-- The line with the given number, counted from 1. -/
def line? (source : String) (number : Nat) : Option String :=
  if number = 0 then none
  else (lines source.toList)[number - 1]?.map fun l => String.ofList (dropReturn l)

/-- The line with the given number, or nothing where there is no such line. -/
def lineText (source : String) (number : Nat) : String := (line? source number).getD ""

example : line? "a +\n  b\r\n* c" 2 = some "  b" := by decide +kernel
example : line? "" 1 = some "" ∧ line? "" 2 = none := by decide +kernel

end JsonTemplate.Source
