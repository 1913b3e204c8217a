import JsonTemplate.Fields
import JsonTemplate.Value.Number

/-! Documents. The entries of an object stand in ascending order of their names. -/

namespace JsonTemplate

inductive Value where
  | null
  | bool (b : Bool)
  | number (n : Number)
  | string (s : String)
  | array (items : List Value)
  | object (fields : List (String × Value))
  deriving Inhabited

namespace Value

/-- The kinds of values, as messages call them. -/
inductive Kind where
  | nil | bool | number | string | array | object
  deriving DecidableEq, Repr

def Kind.name : Kind → String
  | .nil => "nil"
  | .bool => "bool"
  | .number => "number"
  | .string => "string"
  | .array => "array"
  | .object => "object"

def kind : Value → Kind
  | .null => .nil
  | .bool _ => .bool
  | .number _ => .number
  | .string _ => .string
  | .array _ => .array
  | .object _ => .object

/-- An integer as a value. -/
def int (n : Int) : Value := .number (.int n)

def isNull : Value → Bool
  | .null => true
  | _ => false

mutual

/-- The number of values inside a value, itself included, and one for each entry. -/
def size : Value → Nat
  | .array items => 1 + sizeItems items
  | .object fields => 1 + sizeFields fields
  | _ => 1

def sizeItems : List Value → Nat
  | [] => 0
  | v :: rest => v.size + sizeItems rest

def sizeFields : List (String × Value) → Nat
  | [] => 0
  | (_, v) :: rest => 1 + v.size + sizeFields rest

end

mutual

/-- Every object inside a value has its names in ascending order, each of them once. -/
def Ordered : Value → Prop
  | .array items => OrderedItems items
  | .object fields => Fields.Ordered fields ∧ OrderedFields fields
  | _ => True

def OrderedItems : List Value → Prop
  | [] => True
  | v :: rest => v.Ordered ∧ OrderedItems rest

def OrderedFields : List (String × Value) → Prop
  | [] => True
  | (_, v) :: rest => v.Ordered ∧ OrderedFields rest

end

theorem size_pos (v : Value) : 0 < v.size := by
  cases v <;> simp only [size] <;> omega

theorem size_lt_of_mem_items {items : List Value} {v : Value} (h : v ∈ items) :
    v.size < (Value.array items).size := by
  induction items with
  | nil => cases h
  | cons w rest ih =>
    simp only [size, sizeItems] at ih ⊢
    rcases List.mem_cons.1 h with rfl | h
    · omega
    · have := ih h
      omega

theorem size_lt_of_mem_fields {fields : Fields Value} {entry : String × Value}
    (h : entry ∈ fields) : entry.2.size < (Value.object fields).size := by
  induction fields with
  | nil => cases h
  | cons head rest ih =>
    obtain ⟨name, w⟩ := head
    simp only [size, sizeFields] at ih ⊢
    rcases List.mem_cons.1 h with rfl | h
    · simp only
      omega
    · have := ih h
      omega

/-- The size of a value that stands under a name. -/
theorem size_lt_of_get? {fields : Fields Value} {name : String} {v : Value}
    (h : fields.get? name = some v) : v.size < sizeFields fields := by
  induction fields with
  | nil => cases h
  | cons entry rest ih =>
    obtain ⟨key, w⟩ := entry
    unfold Fields.get? at h
    simp only [sizeFields]
    split at h
    · cases h; omega
    · have := ih h; omega

theorem sizeFields_filter_le (p : String × Value → Bool) (fields : Fields Value) :
    sizeFields (fields.filter p) ≤ sizeFields fields := by
  induction fields with
  | nil => simp
  | cons entry rest ih =>
    obtain ⟨key, w⟩ := entry
    rw [List.filter_cons]
    split <;> simp only [sizeFields] <;> omega

theorem sizeFields_without_le (names : List String) (fields : Fields Value) :
    sizeFields (fields.without names) ≤ sizeFields fields :=
  sizeFields_filter_le _ fields

/-- Leaving out a name that has an entry takes away its value. -/
theorem sizeFields_without_lt {names : List String} {fields : Fields Value} {name : String}
    {v : Value} (hn : name ∈ names) (h : fields.get? name = some v) :
    v.size + sizeFields (fields.without names) < sizeFields fields := by
  induction fields with
  | nil => cases h
  | cons entry rest ih =>
    obtain ⟨key, w⟩ := entry
    unfold Fields.get? at h
    split at h
    · next hk =>
      subst hk; cases h
      have : Fields.without names ((name, v) :: rest) = Fields.without names rest := by
        simp [Fields.without, hn]
      rw [this]
      have := sizeFields_without_le names rest
      simp only [sizeFields]; omega
    · have := ih h
      simp only [Fields.without] at this ⊢
      rw [List.filter_cons]
      split <;> simp only [sizeFields] <;> omega

end Value

end JsonTemplate
