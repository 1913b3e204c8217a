import JsonTemplate.Diagnostic.Basic

/-! Reports of diagnostics. A report counts all diagnostics and lists the first twenty. -/

namespace JsonTemplate

/-- The diagnostics that are listed, and how many there are in all. The count is taken to stay
below 2 ^ 64, so it never wraps around. -/
structure Report where
  listed : List Diagnostic
  total : Nat
  deriving DecidableEq, Repr

namespace Report

/-- The number of diagnostics that a report lists. -/
def capacity : Nat := 20

def empty : Report := ⟨[], 0⟩

def push (r : Report) (d : Diagnostic) : Report :=
  ⟨if r.listed.length < capacity then r.listed ++ [d] else r.listed, r.total + 1⟩

/-- Adds the diagnostics of another report. Those that it did not list are counted. -/
def extend (r other : Report) : Report :=
  let pushed := other.listed.foldl push r
  { pushed with total := pushed.total + (other.total - other.listed.length) }

def hasErrors (r : Report) : Bool := 0 < r.total

/-- Whether enough was found to stop looking. -/
def isFull (r : Report) : Bool := capacity ≤ r.total

def first? (r : Report) : Option Diagnostic := r.listed.head?

/-- The number of diagnostics besides the first, as a count of 64 bits. -/
def others (r : Report) : Nat := (r.total + 18446744073709551615) % 18446744073709551616

/-- The first diagnostic and the number of others. -/
def text (r : Report) : String :=
  match r.first? with
  | none => "no errors"
  | some d => if r.total = 1 then d.text else s!"{d.text} (and {r.others} more)"

/-- The report of diagnostics that come one after the other. -/
def ofList (ds : List Diagnostic) : Report := ds.foldl push empty

theorem length_push_le {r : Report} (d : Diagnostic) (h : r.listed.length ≤ capacity) :
    (r.push d).listed.length ≤ capacity := by
  unfold push
  simp only
  split
  · rw [List.length_append]; simpa using by omega
  · exact h

theorem total_foldl_push (ds : List Diagnostic) (r : Report) :
    (ds.foldl push r).total = r.total + ds.length := by
  induction ds generalizing r with
  | nil => rfl
  | cons d rest ih => rw [List.foldl_cons, ih]; simp only [push, List.length_cons]; omega

end Report

end JsonTemplate
