/-! Binary64 floats as exact numbers. A finite float is `± mantissa * 2 ^ exponent`,
so that truncating it, asking whether it is whole and taking remainders are integer
arithmetic, with no rounding anywhere. -/

namespace JsonTemplate.Decimal

open Float.Model (UnpackedFloat)

/-- What a float stands for. Both zeros have mantissa 0. -/
inductive Parts where
  | notANumber
  | infinite (negative : Bool)
  | finite (negative : Bool) (mantissa : Nat) (exponent : Int)
  deriving DecidableEq, Repr

/-- The sign bit of an unpacked sign. -/
def isNegative : UnpackedFloat.Sign → Bool
  | .negative => true
  | .positive => false

def Parts.ofFloat (x : Float) : Parts :=
  match x.toModel.unpack with
  | .notANumber => .notANumber
  | .infinity s => .infinite (isNegative s)
  | .zero s => .finite (isNegative s) 0 0
  | .finite s m e _ => .finite (isNegative s) m e

/-- An integer with the given sign and magnitude. -/
def signed (negative : Bool) (n : Nat) : Int := if negative then -(n : Int) else n

@[simp] theorem natAbs_signed (b : Bool) (n : Nat) : (signed b n).natAbs = n := by
  cases b <;> simp [signed]

/-- The integer part of `mantissa * 2 ^ exponent`. -/
def floorScaled (mantissa : Nat) (exponent : Int) : Nat :=
  mantissa <<< exponent.toNat >>> (-exponent).toNat

/-- The part of a finite float before its point, with the float's sign. -/
def truncate? (x : Float) : Option Int :=
  match Parts.ofFloat x with
  | .finite negative m e => some (signed negative (floorScaled m e))
  | _ => none

/-- Whether a float is finite and has no fraction. -/
def isWhole (x : Float) : Bool :=
  match Parts.ofFloat x with
  | .finite _ m e => m <<< e.toNat % 1 <<< (-e).toNat == 0
  | _ => false

/-- The float nearest to `± mantissa * 2 ^ exponent`. A zero keeps its sign. -/
def ofScaled (negative : Bool) (mantissa : Nat) (exponent : Int) : Float :=
  .ofModel (.pack (.normalize .binary64 (signed negative mantissa) exponent
    (if negative then .negative else .positive)))

/-- What is left of `x` after taking away `y` as often as it fits, with the sign of `x`.
Written over a common power of two this is a remainder of natural numbers, and the
result is a float itself. -/
def remainder (x y : Float) : Float :=
  match Parts.ofFloat x, Parts.ofFloat y with
  | .finite negative m e, .finite _ n f =>
    if n = 0 then .ofModel (.pack .notANumber)
    else
      let unit := min e f
      ofScaled negative (m <<< (e - unit).toNat % n <<< (f - unit).toNat) unit
  | .finite .., .infinite _ => x
  | _, _ => .ofModel (.pack .notANumber)

example : remainder (-5.5) 2.0 = -1.5 := by decide +kernel
example : remainder 1e300 7.0 = 1.0 := by decide +kernel
example : truncate? (-3.9) = some (-3) := by decide +kernel
example : isWhole 1e300 = true ∧ isWhole 0.5 = false := by decide +kernel

end JsonTemplate.Decimal
