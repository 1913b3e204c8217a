import JsonTemplate.Diagnostic.Codec

/-! Reading values as typed data. A decoder gives nothing for a value of another shape. -/

namespace JsonTemplate

/-- Reads a value as data of some type. -/
abbrev Decoder (α : Type) := Value → Option α

namespace Decoder

/-- An integer of 64 bits. -/
def int64 : Decoder Int
  | .number (.int n) => if isInt64 n then some n else none
  | _ => none

def byte : Decoder Nat := Value.natBelow? 256

/-- Any number, an integer as the float nearest to it. -/
def float : Decoder Float
  | .number n => some n.toFloat
  | _ => none

def bool : Decoder Bool
  | .bool b => some b
  | _ => none

def string : Decoder String := Value.string?

/-- Nothing for null, and data of the given type for other values. -/
def optional {α : Type} (d : Decoder α) : Decoder (Option α)
  | .null => some none
  | v => (d v).map some

def list {α : Type} (d : Decoder α) : Decoder (List α)
  | .array items => items.mapM d
  | _ => none

def fields {α : Type} (d : Decoder α) : Decoder (Fields α)
  | .object fields => fields.mapM fun (name, v) => (d v).map fun a => (name, a)
  | _ => none

end Decoder

end JsonTemplate
