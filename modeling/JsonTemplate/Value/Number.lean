import JsonTemplate.Decimal.Layout

/-! Numbers of a document. Integers and floats are kept apart, and an integer outside the
signed 64-bit range takes part in arithmetic and comparison as a float. -/

namespace JsonTemplate

inductive Number where
  | int (n : Int)
  | float (x : Float)
  deriving DecidableEq, Repr

/-- Whether an integer has 64 bits with sign. -/
def isInt64 (n : Int) : Prop := -9223372036854775808 ≤ n ∧ n ≤ 9223372036854775807

instance (n : Int) : Decidable (isInt64 n) := inferInstanceAs (Decidable (_ ∧ _))

namespace Number

/-- The float nearest to a number. -/
def toFloat : Number → Float
  | .int n => Float.ofInt n
  | .float x => x

/-- The integer that arithmetic works with, if the number is one. -/
def word? : Number → Option Int
  | .int n => if isInt64 n then some n else none
  | .float _ => none

theorem word?_int {n : Int} (h : isInt64 n) : (Number.int n).word? = some n := if_pos h

theorem word?_eq_some {a : Number} {n : Int} (h : a.word? = some n) : a = .int n ∧ isInt64 n := by
  cases a with
  | int m =>
    simp only [word?, Option.ite_none_right_eq_some, Option.some.injEq] at h
    obtain ⟨hm, rfl⟩ := h
    exact ⟨rfl, hm⟩
  | float x => cases h

theorem word?_eq_none {n : Int} (h : ¬isInt64 n) : (Number.int n).word? = none := if_neg h

/-- Two numbers as words, if both are. -/
def words? (a b : Number) : Option (Int × Int) :=
  match a.word?, b.word? with
  | some m, some n => some (m, n)
  | _, _ => none

theorem words?_int {m n : Int} (hm : isInt64 m) (hn : isInt64 n) :
    words? (.int m) (.int n) = some (m, n) := by
  rw [words?, word?_int hm, word?_int hn]

theorem words?_eq_none {m n : Int} (h : ¬(isInt64 m ∧ isInt64 n)) :
    words? (.int m) (.int n) = none := by
  unfold words?
  split
  · next hm hn =>
    obtain ⟨heq, hm64⟩ := word?_eq_some hm
    obtain ⟨heq', hn64⟩ := word?_eq_some hn
    cases heq
    cases heq'
    exact absurd ⟨hm64, hn64⟩ h
  · rfl

/-- The order of two floats, if neither is not-a-number. -/
def compareFloats? (x y : Float) : Option Ordering :=
  if x < y then some .lt else if x == y then some .eq else if y < x then some .gt else none

/-- Numbers are compared exactly if both are words, and as floats otherwise. -/
def compare? (a b : Number) : Option Ordering :=
  match words? a b with
  | some (m, n) => some (Ord.compare m n)
  | none => compareFloats? a.toFloat b.toFloat

/-- Equality of quantity, whatever the kinds of the numbers. -/
def sameQuantity (a b : Number) : Bool :=
  match words? a b with
  | some (m, n) => m == n
  | none => a.toFloat == b.toFloat

/-- Equality of kind and quantity. -/
def identical : Number → Number → Bool
  | .int m, .int n => m == n
  | .float x, .float y => x == y
  | _, _ => false

/-- The text of a number inside a JSON text. -/
def jsonText : Number → String
  | .int n => Decimal.intText n
  | .float x => Decimal.jsonLayout.text x

/-- The text of a number on its own. A whole float of the word range is written as an integer. -/
def displayText : Number → String
  | .int n => Decimal.intText n
  | .float x =>
    match Decimal.truncate? x with
    | some n => if Decimal.isWhole x ∧ isInt64 n then Decimal.intText n
        else Decimal.plainLayout.text x
    | none => Decimal.plainLayout.text x

end Number

end JsonTemplate
