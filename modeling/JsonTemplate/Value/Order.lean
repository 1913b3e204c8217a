import JsonTemplate.Value.Basic

/-! Truth, equality and order of values. Numbers are equal by quantity, so `2` equals `2.0`
anywhere inside a value. Only two numbers or two strings have an order. -/

namespace JsonTemplate.Value

/-- Nil, false, zero and whatever is empty count as false. -/
def truthy : Value → Bool
  | .null => false
  | .bool b => b
  | .number n => n.toFloat != 0
  | .string s => !s.isEmpty
  | .array items => !items.isEmpty
  | .object fields => !fields.isEmpty

mutual

/-- Equality with numbers compared by the given test. Two objects are equal if they have as many
entries and each entry of the first has an equal one of the same name in the second. -/
def equalBy (same : Number → Number → Bool) : Value → Value → Bool
  | .null, .null => true
  | .bool a, .bool b => a == b
  | .number a, .number b => same a b
  | .string a, .string b => a == b
  | .array xs, .array ys => equalItemsBy same xs ys
  | .object xs, .object ys => xs.length == ys.length && foundBy same xs ys
  | _, _ => false

def equalItemsBy (same : Number → Number → Bool) : List Value → List Value → Bool
  | [], [] => true
  | x :: xs, y :: ys => equalBy same x y && equalItemsBy same xs ys
  | _, _ => false

/-- Whether each entry of the first object is found in the second one with an equal value. -/
def foundBy (same : Number → Number → Bool) :
    List (String × Value) → Fields Value → Bool
  | [], _ => true
  | (name, x) :: xs, ys =>
    (match ys.get? name with
    | some y => equalBy same x y
    | none => false) && foundBy same xs ys

end

/-- Equality of expressions: numbers by quantity. -/
def equal : Value → Value → Bool := equalBy Number.sameQuantity

/-- Equality of documents: `2` and `2.0` differ. -/
def identical : Value → Value → Bool := equalBy Number.identical

/-- The order of two numbers or two strings. -/
def compare? : Value → Value → Option Ordering
  | .string a, .string b => some (compare a b)
  | .number a, .number b => a.compare? b
  | _, _ => none

end JsonTemplate.Value
