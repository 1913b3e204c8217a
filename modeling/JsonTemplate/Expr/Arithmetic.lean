import JsonTemplate.Decimal.Reader
import JsonTemplate.Expr.EvalError
import JsonTemplate.Text.Search
import JsonTemplate.Value.Order

/-! Operators on values. Arithmetic on integers gives an integer if it has 64 bits, and goes on
with floats otherwise. A float that is not finite is no value. -/

namespace JsonTemplate

namespace Number

/-- A float as a value. -/
def finite (x : Float) : EvalResult :=
  if x.isFinite then .ok (.number (.float x)) else .error (.notFinite x)

/-- An exact result if it has 64 bits, and the float otherwise. -/
def exactOr (n : Int) (x : Float) : EvalResult :=
  if isInt64 n then .ok (.int n) else finite x

/-- Combines two numbers, exactly if both are integers of 64 bits. -/
def combine (exact : Int → Int → Int) (rounded : Float → Float → Float) (a b : Number) :
    EvalResult :=
  match words? a b with
  | some (m, n) => exactOr (exact m n) (rounded (Float.ofInt m) (Float.ofInt n))
  | none => finite (rounded a.toFloat b.toFloat)

def add : Number → Number → EvalResult := combine (· + ·) (· + ·)

def subtract : Number → Number → EvalResult := combine (· - ·) (· - ·)

def multiply : Number → Number → EvalResult := combine (· * ·) (· * ·)

/-- A quotient is always a float. -/
def divide (a b : Number) : EvalResult :=
  if b.toFloat == 0 then .error .divisionByZero else finite (a.toFloat / b.toFloat)

/-- The remainder has the sign of the dividend. -/
def modulo (a b : Number) : EvalResult :=
  if b.toFloat == 0 then .error .moduloByZero
  else match words? a b with
    | some (m, n) => .ok (.int (m.tmod n))
    | none => finite (Decimal.remainder a.toFloat b.toFloat)

def negate (a : Number) : EvalResult :=
  match a.word? with
  | some n => exactOr (-n) (-Float.ofInt n)
  | none => finite (-a.toFloat)

def abs (a : Number) : EvalResult :=
  match a.word? with
  | some n => exactOr n.natAbs (Float.ofInt n).abs
  | none => finite a.toFloat.abs

/-- An integer that has 64 bits at most, nearest to the given one. -/
def saturate (n : Int) : Int := max (-9223372036854775808) (min 9223372036854775807 n)

/-- The position that a number stands for, if it is whole. -/
def position? (a : Number) : Option Int :=
  match a.word? with
  | some n => some n
  | none => if Decimal.isWhole a.toFloat then (Decimal.truncate? a.toFloat).map saturate else none

end Number

namespace Value

/-- An item of a list. Negative positions count from the end. -/
def itemAt {α : Type} (items : List α) (place : Value) : Except EvalError α :=
  match place with
  | .number n =>
    match n.position? with
    | none => .error (.notAnIndex .number)
    | some i =>
      let j := if i < 0 then i + items.length else i
      match if j < 0 then none else items[j.toNat]? with
      | some item => .ok item
      | none => .error (.indexOutOfRange i items.length)
  | v => .error (.notAnIndex v.kind)

/-- A field of an object, nil if there is none. -/
def member (object : Value) (field : String) : EvalResult :=
  match object with
  | .object fields => .ok ((Fields.get? field fields).getD .null)
  | .null => .error (.fieldOfNil field)
  | v => .error (.noFields field v.kind)

/-- A field of an object, an item of an array, or a character of a string. -/
def index (object place : Value) : EvalResult :=
  match object, place with
  | .object fields, .string key => .ok ((Fields.get? key fields).getD .null)
  | .array items, place => itemAt items place
  | .string s, place => (itemAt s.toList place).map fun c => .string (String.ofList [c])
  | .null, place => .error (.indexOfNil place.kind)
  | object, place => .error (.notIndexable object.kind place.kind)

end Value

namespace UnaryOp

def apply (op : UnaryOp) (v : Value) : EvalResult :=
  match op, v with
  | .not, v => .ok (.bool (!v.truthy))
  | .negate, .number n => n.negate
  | .negate, v => .error (.notNegatable v.kind)

end UnaryOp

namespace BinaryOp

/-- The error of operands that do not go with the operator. -/
def mismatch (op : BinaryOp) (a b : Value) : EvalError := .operands op a.kind b.kind

/-- Applies an operation on numbers. -/
def onNumbers (op : BinaryOp) (f : Number → Number → EvalResult) (a b : Value) : EvalResult :=
  match a, b with
  | .number m, .number n => f m n
  | a, b => .error (op.mismatch a b)

/-- Asks for the order of two values. -/
def onOrder (op : BinaryOp) (holds : Ordering → Bool) (a b : Value) : EvalResult :=
  match a.compare? b with
  | some o => .ok (.bool (holds o))
  | none => .error (op.mismatch a b)

/-- An item of an array, a field of an object or a part of a string. Nothing is in nil. -/
def contained (needle haystack : Value) : EvalResult :=
  match needle, haystack with
  | needle, .array items => .ok (.bool (items.any needle.equal))
  | .string key, .object fields => .ok (.bool (Fields.get? key fields).isSome)
  | .string part, .string text => .ok (.bool (Text.occursIn part.toList text.toList))
  | _, .null => .ok (.bool false)
  | needle, haystack => .error (mismatch .isIn needle haystack)

def apply (op : BinaryOp) (a b : Value) : EvalResult :=
  match op with
  | .add =>
    match a, b with
    | .string s, .string t => .ok (.string (s ++ t))
    | .array xs, .array ys => .ok (.array (xs ++ ys))
    | a, b => onNumbers .add Number.add a b
  | .subtract => onNumbers .subtract Number.subtract a b
  | .multiply => onNumbers .multiply Number.multiply a b
  | .divide => onNumbers .divide Number.divide a b
  | .modulo => onNumbers .modulo Number.modulo a b
  | .equal => .ok (.bool (a.equal b))
  | .notEqual => .ok (.bool (!a.equal b))
  | .less => onOrder .less Ordering.isLT a b
  | .greater => onOrder .greater Ordering.isGT a b
  | .lessEqual => onOrder .lessEqual Ordering.isLE a b
  | .greaterEqual => onOrder .greaterEqual Ordering.isGE a b
  | .isIn => contained a b

end BinaryOp

/-- The value of a lazy operator, if the left operand decides it. -/
def LazyOp.decided? (op : LazyOp) (left : Value) : Option Value :=
  match op with
  | .and => if left.truthy then none else some (.bool false)
  | .or => if left.truthy then some (.bool true) else none
  | .coalesce => if left.isNull then none else some left

/-- The value of a lazy operator when the right operand decides it. -/
def LazyOp.otherwise (op : LazyOp) (right : Value) : Value :=
  match op with
  | .and | .or => .bool right.truthy
  | .coalesce => right

end JsonTemplate
