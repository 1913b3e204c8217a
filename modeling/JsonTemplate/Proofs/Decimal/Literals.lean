import JsonTemplate.Decimal.Reader
import JsonTemplate.Proofs.Text.Runs

/-! Decimal numbers without a sign: digits, a fraction or none, and a power of ten or none. There is
a digit in each part that is there. What is written so is always read as a float, and its digits
alone as an integer. -/

namespace JsonTemplate.Decimal

variable {s whole fraction power digits : List Char} {mantissa : Nat} {exponent : Int}

/-- Digits, at least one. -/
structure IsDigits (s : List Char) : Prop where
  ne_nil : s ≠ []
  isDigit : ∀ c ∈ s, c.isDigit

/-- A fraction with its digits. It may be left out. -/
inductive Fraction : List Char → List Char → Prop where
  | absent : Fraction [] []
  | digits {digits : List Char} : IsDigits digits → Fraction ('.' :: digits) digits

/-- The mark in front of a power of ten. -/
def IsPowerMark (c : Char) : Prop := c = 'e' ∨ c = 'E'

/-- A power of ten with its exponent. It may be left out. -/
inductive Power : List Char → Int → Prop where
  | absent : Power [] 0
  | unsigned {mark : Char} {digits : List Char} : IsPowerMark mark → IsDigits digits →
    Power (mark :: digits) (digitsValue digits)
  | signed {mark sign : Char} {digits : List Char} : IsPowerMark mark → sign = '+' ∨ sign = '-' →
    IsDigits digits → Power (mark :: sign :: digits) (signed (sign = '-') (digitsValue digits))

/-- The text stands for the number `mantissa * 10 ^ exponent`. -/
inductive Denotes : List Char → Nat → Int → Prop where
  | parts {whole fraction power digits : List Char} {exponent : Int} : IsDigits whole →
    Fraction fraction digits → Power power exponent →
    Denotes (whole ++ (fraction ++ power)) (digitsValue (whole ++ digits))
      (exponent - digits.length)

/-! ### Integers -/

theorem takeSign_digit {first : Char} {more : List Char} (h : first.isDigit) :
    takeSign (first :: more) = (false, first :: more) := by
  unfold takeSign
  split
  · next hsign =>
    cases hsign
    cases h
  · next hsign =>
    cases hsign
    cases h
  · rfl

namespace IsDigits

variable (h : IsDigits s)
include h

theorem exists_cons : ∃ first more, s = first :: more ∧ first.isDigit := by
  obtain ⟨first, more, rfl⟩ := List.exists_cons_of_ne_nil h.ne_nil
  exact ⟨first, more, rfl, h.isDigit first List.mem_cons_self⟩

theorem readDigits?_eq : readDigits? s = some (digitsValue s) :=
  if_pos ⟨h.ne_nil, List.all_eq_true.2 h.isDigit⟩

/-- The digits are read as the number that they stand for, however many they are. -/
theorem readInt?_eq : readInt? s = some (digitsValue s : Int) := by
  obtain ⟨first, more, hs, hfirst⟩ := h.exists_cons
  rw [readInt?, hs, takeSign_digit hfirst, ← hs]
  simp only [h.readDigits?_eq, Option.map_some]
  rfl

end IsDigits

/-! ### Floats -/

theorem IsPowerMark.ne {mark : Char} (h : IsPowerMark mark) : ¬mark.isDigit ∧ mark ≠ '.' := by
  rcases h with rfl | rfl <;> decide

namespace Power

variable (h : Power s exponent)
include h

theorem readPower?_eq : readPower? s = some exponent := by
  cases h with
  | absent => rfl
  | unsigned hmark hdigits => exact (if_pos hmark).trans hdigits.readInt?_eq
  | signed hmark hsign hdigits =>
    refine (if_pos hmark).trans ?_
    rcases hsign with rfl | rfl <;> exact congrArg (Option.map _) hdigits.readDigits?_eq

/-- The mark of a power is neither a digit nor a point. -/
theorem head?_ne {c : Char} (hc : s.head? = some c) : ¬c.isDigit ∧ c ≠ '.' := by
  cases h with
  | absent => cases hc
  | unsigned hmark _ | signed hmark _ _ =>
    cases hc
    exact hmark.ne

end Power

theorem readDecimal?_whole (hwhole : IsDigits whole) (hpower : Power power exponent) :
    readDecimal? (whole ++ power) = some (digitsValue whole, exponent) := by
  have hstop : ∀ c, power.head? = some c → ¬c.isDigit := fun c hc => (hpower.head?_ne hc).1
  unfold readDecimal?
  simp only [takeWhile_append_stop hwhole.isDigit hstop, dropWhile_append_stop hwhole.isDigit hstop]
  split
  · next r => exact absurd rfl (hpower.head?_ne rfl).2
  · simp [hwhole.ne_nil, hpower.readPower?_eq]

theorem readDecimal?_fraction (hwhole : IsDigits whole) (hdigits : IsDigits digits)
    (hpower : Power power exponent) :
    readDecimal? (whole ++ '.' :: (digits ++ power)) =
      some (digitsValue (whole ++ digits), exponent - digits.length) := by
  have hpoint : ∀ c, ('.' :: (digits ++ power)).head? = some c → ¬c.isDigit := by
    rintro c ⟨⟩
    decide
  have hstop : ∀ c, power.head? = some c → ¬c.isDigit := fun c hc => (hpower.head?_ne hc).1
  unfold readDecimal?
  simp only [takeWhile_append_stop hwhole.isDigit hpoint,
    dropWhile_append_stop hwhole.isDigit hpoint, takeWhile_append_stop hdigits.isDigit hstop,
    dropWhile_append_stop hdigits.isDigit hstop]
  simp [hwhole.ne_nil, hpower.readPower?_eq]

theorem toLower_of_isDigit {c : Char} (h : c.isDigit) : c.toLower = c := by
  unfold Char.isDigit at h
  unfold Char.toLower
  grind

namespace Denotes

variable (h : Denotes s mantissa exponent)
include h

theorem exists_cons : ∃ first more, s = first :: more ∧ first.isDigit := by
  cases h with
  | parts hwhole _ _ =>
    obtain ⟨first, more, rfl, hfirst⟩ := hwhole.exists_cons
    exact ⟨first, _, rfl, hfirst⟩

theorem readDecimal?_eq : readDecimal? s = some (mantissa, exponent) := by
  cases h with
  | parts hwhole hfraction hpower =>
    cases hfraction with
    | absent =>
      rw [List.append_nil]
      simpa using readDecimal?_whole hwhole hpower
    | digits hdigits => exact readDecimal?_fraction hwhole hdigits hpower

/-- No word for infinity or not-a-number starts with a digit. -/
theorem readMagnitude?_eq : readMagnitude? s = some (nearestFloat mantissa exponent) := by
  obtain ⟨first, more, hs, hfirst⟩ := h.exists_cons
  have hword (letter : Char) (letters : List Char) (hletter : ¬letter.isDigit) :
      String.ofList (s.map Char.toLower) ≠ String.ofList (letter :: letters) := by
    intro heq
    have hchars := String.ofList_injective heq
    rw [hs, List.map_cons, toLower_of_isDigit hfirst] at hchars
    exact hletter ((List.cons.inj hchars).1 ▸ hfirst)
  have hinfinity : ¬(String.ofList (s.map Char.toLower) = "inf" ∨
      String.ofList (s.map Char.toLower) = "infinity") :=
    not_or.2 ⟨hword 'i' ['n', 'f'] (by decide),
      hword 'i' ['n', 'f', 'i', 'n', 'i', 't', 'y'] (by decide)⟩
  rw [readMagnitude?, if_neg hinfinity, if_neg (hword 'n' ['a', 'n'] (by decide)),
    h.readDecimal?_eq, Option.map_some]

/-- What is written so is read as the float that is nearest to it. -/
theorem readFloat?_eq : readFloat? s = some (nearestFloat mantissa exponent) := by
  obtain ⟨first, more, hs, hfirst⟩ := h.exists_cons
  rw [readFloat?, hs, takeSign_digit hfirst, ← hs]
  simp only [h.readMagnitude?_eq, Option.map_some]
  rfl

end Denotes

end JsonTemplate.Decimal
