import JsonTemplate.Decimal.Binary

/-! Reading decimal numbers. An integer is an optional sign and digits; a float may also have
a point, a power of ten, or be one of the words for infinity and not-a-number. -/

namespace JsonTemplate.Decimal

/-- Whether a text starts with a minus, and the text after its sign. -/
def takeSign : List Char → Bool × List Char
  | '-' :: rest => (true, rest)
  | '+' :: rest => (false, rest)
  | rest => (false, rest)

/-- The number that a list of decimal digits stands for. -/
def digitsValue (ds : List Char) : Nat := ds.foldl (fun n c => 10 * n + (c.toNat - '0'.toNat)) 0

/-- The number of digits, if there are any and nothing else. -/
def readDigits? (ds : List Char) : Option Nat :=
  if ds ≠ [] ∧ ds.all Char.isDigit then some (digitsValue ds) else none

/-- Reads an integer with an optional sign. -/
def readInt? (s : List Char) : Option Int :=
  let (negative, ds) := takeSign s
  (readDigits? ds).map (signed negative)

/-- The power of ten after the digits of a float, 0 if there is none. -/
def readPower? : List Char → Option Int
  | [] => some 0
  | c :: rest => if c = 'e' ∨ c = 'E' then readInt? rest else none

/-- Reads a decimal without sign as `mantissa * 10 ^ exponent`. A digit is needed before or
after the point. -/
def readDecimal? (s : List Char) : Option (Nat × Int) :=
  let whole := s.takeWhile Char.isDigit
  let rest := s.dropWhile Char.isDigit
  let (fraction, rest) := match rest with
    | '.' :: r => (r.takeWhile Char.isDigit, r.dropWhile Char.isDigit)
    | r => ([], r)
  if whole = [] ∧ fraction = [] then none
  else (readPower? rest).map fun e => (digitsValue (whole ++ fraction), e - fraction.length)

def infinity : Float := .ofModel (.pack (.infinity .positive))

def notANumber : Float := .ofModel (.pack .notANumber)

/-- The float nearest to `mantissa * 10 ^ exponent`. A number of `10 ^ 310` or more is beyond
every float, and one below `10 ^ -330` is nearest to zero, so huge powers need no arithmetic. -/
def nearestFloat (mantissa : Nat) (exponent : Int) : Float :=
  let lead := exponent + (Nat.toDigits 10 mantissa).length
  if mantissa = 0 ∨ lead < -330 then 0
  else if 310 < lead then infinity
  else Float.ofScientific mantissa (exponent < 0) exponent.natAbs

/-- A float without its sign. Words are read in either case. -/
def readMagnitude? (s : List Char) : Option Float :=
  let word := String.ofList (s.map Char.toLower)
  if word = "inf" ∨ word = "infinity" then some infinity
  else if word = "nan" then some notANumber
  else (readDecimal? s).map fun (m, e) => nearestFloat m e

/-- Reads a float: an optional sign and a decimal or a word. -/
def readFloat? (s : List Char) : Option Float :=
  let (negative, rest) := takeSign s
  (readMagnitude? rest).map fun x => if negative then -x else x

example : readFloat? "5e-324".toList = some 5e-324 := by decide +kernel
example : readFloat? ".5".toList = some 0.5 ∧ readFloat? "1.".toList = some 1 := by decide +kernel
example : readFloat? ".".toList = none ∧ readFloat? "1e".toList = none := by decide +kernel
example : readFloat? "1e400".toList = some infinity := by decide +kernel

end JsonTemplate.Decimal
