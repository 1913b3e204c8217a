/-! The fewest decimal digits that stand for a binary number. Reading a decimal rounds it
to the nearest float, so a float owns an interval of reals; a decimal of that interval
reads back as the float. The digits are searched on coarser grids first, and on the first
grid that has a point in the interval the point nearest to the float is taken. -/

namespace JsonTemplate.Decimal

/-- The number `digits * 10 ^ exponent`. -/
structure Digits where
  digits : Nat
  exponent : Int
  deriving DecidableEq, Repr

def Digits.value (d : Digits) : Rat := d.digits * 10 ^ d.exponent

/-- The reals that are read as one float. -/
structure Interval where
  lower : Rat
  upper : Rat
  closed : Bool

def Interval.contains (i : Interval) (x : Rat) : Bool :=
  (i.lower < x || (i.closed && i.lower == x)) && (x < i.upper || (i.closed && x == i.upper))

/-- The reals nearest to `mantissa * 2 ^ exponent`. The ends lie halfway to the neighbours,
the lower one closer at a power of two, and belong to the interval of an even mantissa. -/
def Interval.around (mantissa : Nat) (exponent : Int) : Interval :=
  let below : Rat := if mantissa = 1 <<< 52 ∧ -1074 < exponent then 1 / 4 else 1 / 2
  { lower := (mantissa - below) * 2 ^ exponent
    upper := (mantissa + 1 / 2) * 2 ^ exponent
    closed := mantissa % 2 == 0 }

/-- Which of two equally near decimals is taken. -/
inductive Tie where
  | toEven
  | up
  deriving DecidableEq, Repr

def Tie.choose (t : Tie) (n : Nat) : Nat :=
  match t with
  | .toEven => if n % 2 = 0 then n else n + 1
  | .up => n + 1

theorem Tie.choose_eq_or (t : Tie) (n : Nat) : t.choose n = n ∨ t.choose n = n + 1 := by
  unfold Tie.choose
  cases t
  · simp only; split <;> simp
  · simp

/-- The multiple of `10 ^ grid` that is nearest to `x` among those in the interval,
if one of the two neighbours of `x` on the grid is in it. -/
def Interval.nearest? (i : Interval) (t : Tie) (x : Rat) (grid : Int) : Option Digits :=
  let unit : Rat := 10 ^ grid
  let n := (x / unit).floor.toNat
  match i.contains (n * unit), i.contains ((n + 1 : Nat) * unit) with
  | true, true =>
    let middle := (2 * n + 1 : Nat) * unit
    if 2 * x < middle then some ⟨n, grid⟩
    else if middle < 2 * x then some ⟨n + 1, grid⟩
    else some ⟨t.choose n, grid⟩
  | true, false => some ⟨n, grid⟩
  | false, true => some ⟨n + 1, grid⟩
  | false, false => none

/-- The power of ten of the leading digit of a positive number. -/
def leadingPower (x : Rat) : Int :=
  let places (y : Rat) : Int := (Nat.toDigits 10 y.floor.toNat).length
  if 1 ≤ x then places x - 1
  else
    let j := places x⁻¹
    if x = 10 ^ (1 - j) then 1 - j else -j

/-- The same number without trailing zeros. -/
def Digits.trimmed (d : Digits) : Digits :=
  if h : d.digits ≠ 0 ∧ d.digits % 10 = 0 then
    Digits.trimmed ⟨d.digits / 10, d.exponent + 1⟩
  else d
  termination_by d.digits
  decreasing_by exact Nat.div_lt_self (by omega) (by decide)

/-- All digits of `mantissa * 2 ^ exponent`. -/
def Digits.exact (mantissa : Nat) (exponent : Int) : Digits :=
  ⟨mantissa <<< exponent.toNat * Nat.pow 5 (-exponent).toNat, min exponent 0⟩

/-- The fewest digits that are read as `mantissa * 2 ^ exponent`, for a positive mantissa.
Seventeen digits are enough for every float. -/
def shortest (t : Tie) (mantissa : Nat) (exponent : Int) : Digits :=
  let x : Rat := mantissa * 2 ^ exponent
  let i := Interval.around mantissa exponent
  let lead := leadingPower x
  let found := (List.range 17).findSome? fun n : Nat => i.nearest? t x (lead - n)
  (found.getD (.exact mantissa exponent)).trimmed

/-- Whatever grid supplies the digits, they are read back as the number. -/
theorem Interval.contains_of_nearest? {i : Interval} {t : Tie} {x : Rat} {g : Int} {d : Digits}
    (h : i.nearest? t x g = some d) : i.contains d.value = true := by
  unfold Interval.nearest? at h
  simp only at h
  split at h
  · next h₁ h₂ =>
    split at h
    · cases h; exact h₁
    · split at h
      · cases h; exact h₂
      · cases h
        rcases t.choose_eq_or (x / 10 ^ g).floor.toNat with e | e <;> simp only [Digits.value, e]
        · exact h₁
        · exact h₂
  · next h₁ _ => cases h; exact h₁
  · next h₂ => cases h; exact h₂
  · cases h

example : shortest .toEven 7205759403792794 (-56) = ⟨1, -1⟩ := by decide +kernel
example : shortest .toEven 1 (-1074) = ⟨5, -324⟩ := by decide +kernel
example : shortest .toEven (1 <<< 52) (-77) = ⟨29802322387695312, -24⟩ := by decide +kernel
example : shortest .up (1 <<< 52) (-77) = ⟨29802322387695313, -24⟩ := by decide +kernel

end JsonTemplate.Decimal
