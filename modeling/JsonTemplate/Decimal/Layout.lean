import JsonTemplate.Decimal.Binary
import JsonTemplate.Decimal.Shortest

/-! Layouts of decimal numbers. A layout says which numbers are written without a power of ten,
whether a whole number keeps a point, and which of two equally near decimals is taken. -/

namespace JsonTemplate.Decimal

/-- How numbers are written. -/
structure Layout where
  /-- Numbers whose leading digit stands for `10 ^ e` are written in place for
  `plainFrom ≤ e ≤ plainTo`, and with a power of ten otherwise. -/
  plainFrom : Int
  plainTo : Int
  /-- Whole numbers written in place end in `.0`. -/
  wholePoint : Bool
  tie : Tie

/-- The digits of a natural number. -/
def natText (n : Nat) : List Char := Nat.toDigits 10 n

/-- The digits of an integer after its sign. -/
def intText (n : Int) : String :=
  String.ofList (if n < 0 then '-' :: natText n.natAbs else natText n.natAbs)

/-- A number written without a power of ten. -/
def Layout.plain (f : Layout) (d : Digits) : List Char :=
  let ds := natText d.digits
  if 0 ≤ d.exponent then
    ds ++ List.replicate d.exponent.toNat '0' ++ (if f.wholePoint then ['.', '0'] else [])
  else
    let fraction := (-d.exponent).toNat
    if fraction < ds.length then
      ds.take (ds.length - fraction) ++ '.' :: ds.drop (ds.length - fraction)
    else
      '0' :: '.' :: (List.replicate (fraction - ds.length) '0' ++ ds)

/-- A number written with one digit before the point and a signed power of ten. -/
def scientific (lead : Int) (ds : List Char) : List Char :=
  let mantissa := match ds with
    | [] => []
    | [c] => [c]
    | c :: rest => c :: '.' :: rest
  mantissa ++ 'e' :: (if lead < 0 then '-' else '+') :: natText lead.natAbs

def Layout.digits (f : Layout) (d : Digits) : List Char :=
  let ds := natText d.digits
  let lead := d.exponent + ds.length - 1
  if f.plainFrom ≤ lead ∧ lead ≤ f.plainTo then f.plain d else scientific lead ds

/-- The text of a float: the fewest digits that read back, in the given layout. -/
def Layout.text (f : Layout) (x : Float) : String :=
  match Parts.ofFloat x with
  | .notANumber => "NaN"
  | .infinite negative => if negative then "-inf" else "inf"
  | .finite negative m e =>
    let digits := if m = 0 then f.plain ⟨0, 0⟩ else f.digits (shortest f.tie m e)
    String.ofList (if negative then '-' :: digits else digits)

/-- The layout of numbers inside a JSON text: in place from `0.00001` up to sixteen digits
before the point, and a half goes to the even neighbour. -/
def jsonLayout : Layout := ⟨-5, 15, true, .toEven⟩

/-- The layout of a number on its own: always in place, and a half goes up. -/
def plainLayout : Layout := ⟨-324, 308, false, .up⟩

example : jsonLayout.text 100.0 = "100.0" := by decide +kernel
example : jsonLayout.text 1e16 = "1e+16" := by decide +kernel
example : jsonLayout.text 0.00001 = "0.00001" := by decide +kernel
example : jsonLayout.text 1.5e-7 = "1.5e-7" := by decide +kernel
example : jsonLayout.text (-0.0) = "-0.0" := by decide +kernel
example : plainLayout.text 1.5e-7 = "0.00000015" := by decide +kernel
example : plainLayout.text 9223372036854775808.0 = "9223372036854776000" := by decide +kernel

end JsonTemplate.Decimal
