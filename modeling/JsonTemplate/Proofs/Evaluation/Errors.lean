import JsonTemplate.Expr.Eval

/-! The errors of single operations. Every operation fails with errors of few kinds. A builtin
function lacks no argument if it is given as many as it takes. -/

namespace JsonTemplate

open EvalError (Kind)

theorem bind_eq_ok {ε α β : Type} {x : Except ε α} {f : α → Except ε β} {b : β} :
    (x >>= f) = .ok b ↔ ∃ a, x = .ok a ∧ f a = .ok b := by
  cases x with
  | error e =>
    constructor
    · intro h
      cases h
    · rintro ⟨a, ha, -⟩
      cases ha
  | ok a =>
    constructor
    · intro h
      exact ⟨a, rfl, h⟩
    · rintro ⟨a', ha, hf⟩
      cases ha
      exact hf

theorem bind_eq_error {ε α β : Type} {x : Except ε α} {f : α → Except ε β} {e : ε} :
    (x >>= f) = .error e ↔ x = .error e ∨ ∃ a, x = .ok a ∧ f a = .error e := by
  cases x with
  | error other =>
    constructor
    · intro h
      cases h
      exact .inl rfl
    · rintro (h | ⟨a, ha, -⟩)
      · cases h
        rfl
      · cases ha
  | ok a =>
    constructor
    · intro h
      exact .inr ⟨a, rfl, h⟩
    · rintro (h | ⟨_, ⟨⟩, h⟩)
      · cases h
      · exact h

/-- The result is a value, or an error of one of the kinds. -/
def FailsWith {α : Type} (kinds : List Kind) (r : Except EvalError α) : Prop :=
  ∀ e, r = .error e → e.kind ∈ kinds

section FailsWith
variable {α β : Type} {kinds : List Kind}

theorem failsWith_ok (a : α) : FailsWith kinds (.ok a) := nofun

theorem failsWith_error {e : EvalError} (h : e.kind ∈ kinds) :
    FailsWith kinds (.error e : Except EvalError α) := by
  rintro _ ⟨⟩
  exact h

theorem FailsWith.mono {r : Except EvalError α} {more : List Kind} (h : FailsWith kinds r)
    (hk : kinds ⊆ more) : FailsWith more r :=
  fun e he => hk (h e he)

theorem FailsWith.bind {r : Except EvalError α} {f : α → Except EvalError β}
    (h : FailsWith kinds r) (hf : ∀ a, r = .ok a → FailsWith kinds (f a)) :
    FailsWith kinds (r >>= f) := by
  cases r with
  | ok a => exact hf a rfl
  | error e => exact failsWith_error (h e rfl)

theorem FailsWith.map {r : Except EvalError α} (h : FailsWith kinds r) (f : α → β) :
    FailsWith kinds (r.map f) := by
  cases r with
  | ok a => exact failsWith_ok _
  | error e => exact failsWith_error (h e rfl)

end FailsWith

/-! ### Operators -/

namespace Number

theorem failsWith_finite (x : Float) : FailsWith [.arithmetic] (finite x) := by
  unfold finite
  split
  · exact failsWith_ok _
  · exact failsWith_error (by simp [EvalError.kind])

theorem failsWith_exactOr (n : Int) (x : Float) : FailsWith [.arithmetic] (exactOr n x) := by
  unfold exactOr
  split
  · exact failsWith_ok _
  · exact failsWith_finite x

theorem failsWith_combine (exact : Int → Int → Int) (rounded : Float → Float → Float)
    (a b : Number) : FailsWith [.arithmetic] (combine exact rounded a b) := by
  unfold combine
  split
  · exact failsWith_exactOr _ _
  · exact failsWith_finite _

theorem failsWith_divide (a b : Number) : FailsWith [.arithmetic] (divide a b) := by
  unfold divide
  split
  · exact failsWith_error (by simp [EvalError.kind])
  · exact failsWith_finite _

theorem failsWith_modulo (a b : Number) : FailsWith [.arithmetic] (modulo a b) := by
  unfold modulo
  split
  · exact failsWith_error (by simp [EvalError.kind])
  · split
    · exact failsWith_ok _
    · exact failsWith_finite _

theorem failsWith_negate (a : Number) : FailsWith [.arithmetic] a.negate := by
  unfold negate
  split
  · exact failsWith_exactOr _ _
  · exact failsWith_finite _

theorem failsWith_abs (a : Number) : FailsWith [.arithmetic] a.abs := by
  unfold abs
  split
  · exact failsWith_exactOr _ _
  · exact failsWith_finite _

end Number

theorem UnaryOp.failsWith_apply (op : UnaryOp) (v : Value) :
    FailsWith [.arithmetic, .type] (op.apply v) := by
  unfold apply
  split
  · exact failsWith_ok _
  · next n => exact n.failsWith_negate.mono (by simp)
  · exact failsWith_error (by simp [EvalError.kind])

namespace BinaryOp

theorem failsWith_onNumbers (op : BinaryOp) {f : Number → Number → EvalResult}
    (hf : ∀ m n, FailsWith [.arithmetic] (f m n)) (a b : Value) :
    FailsWith [.arithmetic, .type] (op.onNumbers f a b) := by
  unfold onNumbers
  split
  · next m n => exact (hf m n).mono (by simp)
  · exact failsWith_error (by simp [mismatch, EvalError.kind])

theorem failsWith_onOrder (op : BinaryOp) (holds : Ordering → Bool) (a b : Value) :
    FailsWith [.arithmetic, .type] (op.onOrder holds a b) := by
  unfold onOrder
  split
  · exact failsWith_ok _
  · exact failsWith_error (by simp [mismatch, EvalError.kind])

theorem failsWith_contained (needle haystack : Value) :
    FailsWith [.arithmetic, .type] (contained needle haystack) := by
  unfold contained
  split
  · exact failsWith_ok _
  · exact failsWith_ok _
  · exact failsWith_ok _
  · exact failsWith_ok _
  · exact failsWith_error (by simp [mismatch, EvalError.kind])

theorem failsWith_add (a b : Value) :
    FailsWith [.arithmetic, .type] (BinaryOp.add.apply a b) := by
  simp only [apply]
  split
  · exact failsWith_ok _
  · exact failsWith_ok _
  · exact failsWith_onNumbers .add (Number.failsWith_combine _ _) _ _

theorem failsWith_apply (op : BinaryOp) (a b : Value) :
    FailsWith [.arithmetic, .type] (op.apply a b) := by
  cases op with
  | add => exact failsWith_add a b
  | subtract | multiply => exact failsWith_onNumbers _ (Number.failsWith_combine _ _) a b
  | divide => exact failsWith_onNumbers _ Number.failsWith_divide a b
  | modulo => exact failsWith_onNumbers _ Number.failsWith_modulo a b
  | equal | notEqual => exact failsWith_ok _
  | less | greater | lessEqual | greaterEqual => exact failsWith_onOrder _ _ a b
  | isIn => exact failsWith_contained a b

end BinaryOp

/-! ### Access -/

namespace Value

/-- A position among so many items, counted from the front. -/
def fromFront (length : Nat) (i : Int) : Int := if i < 0 then i + length else i

/-- The place of an item among so many. -/
def resolve (length : Nat) : Value → Except EvalError Nat
  | .number n =>
    match n.position? with
    | none => .error (.notAnIndex .number)
    | some i =>
      if 0 ≤ fromFront length i ∧ fromFront length i < length then
        .ok (fromFront length i).toNat
      else .error (.indexOutOfRange i length)
  | v => .error (.notAnIndex v.kind)

theorem resolve_lt {length i : Nat} {place : Value} (h : resolve length place = .ok i) :
    i < length := by
  unfold resolve at h
  split at h
  · split at h
    · cases h
    · split at h
      · cases h
        omega
      · cases h
  · cases h

theorem failsWith_resolve (length : Nat) (place : Value) :
    FailsWith [.indexRange, .type] (resolve length place) := by
  unfold resolve
  split
  · split
    · exact failsWith_error (by simp [EvalError.kind])
    · split
      · exact failsWith_ok _
      · exact failsWith_error (by simp [EvalError.kind])
  · exact failsWith_error (by simp [EvalError.kind])

/-- The item at a position. -/
def taken {α : Type} (items : List α) (i : Nat) : Except EvalError α :=
  match items[i]? with
  | some item => .ok item
  | none => .error (.indexOutOfRange i items.length)

theorem taken_eq_ok {α : Type} {items : List α} {i : Nat} (h : i < items.length) :
    taken items i = .ok items[i] := by
  rw [taken, List.getElem?_eq_getElem h]

/-- An item is taken at the position that the place stands for. -/
theorem itemAt_eq_resolve {α : Type} (items : List α) (place : Value) :
    itemAt items place = resolve items.length place >>= taken items := by
  cases place with
  | number n =>
    simp only [itemAt, resolve]
    cases n.position? with
    | none => rfl
    | some i =>
      change (match if fromFront items.length i < 0 then none
        else items[(fromFront items.length i).toNat]? with
        | some item => .ok item
        | none => .error (.indexOutOfRange i items.length) : Except EvalError α) = _
      simp only
      generalize fromFront items.length i = j
      by_cases hneg : j < 0
      · rw [if_pos hneg]
        simp only [show ¬(0 ≤ j ∧ j < items.length) by omega, if_false]
        rfl
      rw [if_neg hneg]
      by_cases hlt : j < items.length
      · have hplace : j.toNat < items.length := by omega
        simp only [show 0 ≤ j ∧ j < items.length by omega]
        rw [List.getElem?_eq_getElem hplace]
        exact (taken_eq_ok hplace).symm
      · simp only [show ¬(0 ≤ j ∧ j < items.length) by omega, if_false]
        rw [List.getElem?_eq_none (by omega)]
        rfl
  | _ => rfl

theorem failsWith_member (object : Value) (field : String) :
    FailsWith [.nilAccess, .type] (object.member field) := by
  unfold member
  split
  · exact failsWith_ok _
  · exact failsWith_error (by simp [EvalError.kind])
  · exact failsWith_error (by simp [EvalError.kind])

theorem failsWith_itemAt {α : Type} (items : List α) (place : Value) :
    FailsWith [.indexRange, .type] (itemAt items place) := by
  rw [itemAt_eq_resolve]
  refine (failsWith_resolve items.length place).bind fun i hi => ?_
  rw [taken_eq_ok (resolve_lt hi)]
  exact failsWith_ok _

theorem failsWith_index (object place : Value) :
    FailsWith [.indexRange, .nilAccess, .type] (object.index place) := by
  unfold index
  split
  · exact failsWith_ok _
  · exact (failsWith_itemAt _ _).mono (by simp)
  · exact ((failsWith_itemAt _ _).mono (by simp)).map _
  · exact failsWith_error (by simp [EvalError.kind])
  · exact failsWith_error (by simp [EvalError.kind])

end Value

/-! ### Builtin functions -/

namespace Builtin

theorem failsWith_stringArgument (function : String) (v : Value) :
    FailsWith [.arithmetic, .type, .function] (stringArgument function v) := by
  unfold stringArgument
  split
  · exact failsWith_ok _
  · exact failsWith_error (by simp [EvalError.kind])

theorem failsWith_integerPart (x : Float) :
    FailsWith [.arithmetic, .type, .function] (integerPart x) := by
  unfold integerPart
  split
  · split
    · exact failsWith_ok _
    · exact failsWith_error (by simp [EvalError.kind])
  · exact failsWith_error (by simp [EvalError.kind])

theorem failsWith_lengthOf (v : Value) :
    FailsWith [.arithmetic, .type, .function] (lengthOf v) := by
  unfold lengthOf
  split <;> first | exact failsWith_ok _ | exact failsWith_error (by simp [EvalError.kind])

theorem failsWith_toInt (v : Value) : FailsWith [.arithmetic, .type, .function] (toInt v) := by
  unfold toInt
  split
  · exact failsWith_ok _
  · simp only
    split
    · exact failsWith_ok _
    · split
      · exact failsWith_integerPart _
      · exact failsWith_error (by simp [notParsed, EvalError.kind])
  · split
    · exact failsWith_ok _
    · exact failsWith_integerPart _
  · exact failsWith_error (by simp [EvalError.kind])

theorem failsWith_toFloat (v : Value) : FailsWith [.arithmetic, .type, .function] (toFloat v) := by
  unfold toFloat
  split
  · split
    · exact (Number.failsWith_finite _).mono (by simp)
    · exact failsWith_error (by simp [notParsed, EvalError.kind])
  · exact (Number.failsWith_finite _).mono (by simp)
  · exact failsWith_error (by simp [EvalError.kind])

theorem failsWith_absolute (v : Value) :
    FailsWith [.arithmetic, .type, .function] (absolute v) := by
  unfold absolute
  split
  · next n => exact n.failsWith_abs.mono (by simp)
  · exact failsWith_error (by simp [EvalError.kind])

theorem failsWith_keysOf (v : Value) : FailsWith [.arithmetic, .type, .function] (keysOf v) := by
  unfold keysOf
  split
  · exact failsWith_ok _
  · exact failsWith_error (by simp [EvalError.kind])

theorem failsWith_valuesOf (v : Value) :
    FailsWith [.arithmetic, .type, .function] (valuesOf v) := by
  unfold valuesOf
  split
  · exact failsWith_ok _
  · exact failsWith_error (by simp [EvalError.kind])

theorem failsWith_joinWith (list : Value) (separator : Option Value) :
    FailsWith [.arithmetic, .type, .function] (joinWith list separator) := by
  unfold joinWith
  split
  · cases separator with
    | none => exact failsWith_ok _
    | some v => exact (failsWith_stringArgument "join" v).bind fun _ _ => failsWith_ok _
  · exact failsWith_error (by simp [EvalError.kind])

section Call
variable {b : Builtin} {arguments : List Value}

theorem failsWith_onFirst {f : Value → EvalResult} (h : 0 < arguments.length)
    (hf : ∀ v, FailsWith [.arithmetic, .type, .function] (f v)) :
    FailsWith [.arithmetic, .type, .function] (b.onFirst f arguments) := by
  cases arguments with
  | nil => exact absurd h (Nat.lt_irrefl _)
  | cons v rest => exact hf v

theorem failsWith_onText {f : String → String} (h : 0 < arguments.length) :
    FailsWith [.arithmetic, .type, .function] (b.onText f arguments) :=
  failsWith_onFirst h fun v =>
    (failsWith_stringArgument b.name v).bind fun _ _ => failsWith_ok _

theorem accepts_iff {a : Arity} {count : Nat} :
    a.accepts count ↔ a.least ≤ count ∧ count ≤ a.most := by
  simp [Arity.accepts]

/-- No function goes without an argument. -/
theorem least_pos (b : Builtin) : 0 < b.arity.least := by
  cases b <;> decide

/-- A function that is given as many arguments as it takes does not lack any. -/
theorem failsWith_call (h : b.arity.accepts arguments.length) :
    FailsWith [.arithmetic, .type, .function] (b.call arguments) := by
  have hleast : b.arity.least ≤ arguments.length := (accepts_iff.1 h).1
  have hpos : 0 < arguments.length := Nat.lt_of_lt_of_le b.least_pos hleast
  cases b with
  | len => exact failsWith_onFirst hpos failsWith_lengthOf
  | upper | lower | trim => exact failsWith_onText hpos
  | string => exact failsWith_onFirst hpos fun _ => failsWith_ok _
  | int => exact failsWith_onFirst hpos failsWith_toInt
  | float => exact failsWith_onFirst hpos failsWith_toFloat
  | abs => exact failsWith_onFirst hpos failsWith_absolute
  | keys => exact failsWith_onFirst hpos failsWith_keysOf
  | values => exact failsWith_onFirst hpos failsWith_valuesOf
  | join => exact failsWith_onFirst hpos fun _ => failsWith_joinWith _ _
  | split =>
    refine failsWith_onFirst hpos fun v => ?_
    refine (failsWith_stringArgument "split" v).bind fun text _ => ?_
    have hsecond : 1 < arguments.length := hleast
    rw [List.getElem?_eq_getElem hsecond]
    exact (failsWith_stringArgument "split" _).bind fun _ _ => failsWith_ok _

theorem call_ne_missingArgument (h : b.arity.accepts arguments.length) (function : String) :
    b.call arguments ≠ .error (.missingArgument function) := by
  intro hmissing
  have hkind := failsWith_call h _ hmissing
  simp [EvalError.kind] at hkind

end Call

end Builtin

end JsonTemplate
