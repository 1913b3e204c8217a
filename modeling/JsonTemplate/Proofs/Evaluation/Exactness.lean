import JsonTemplate.Proofs.Decimal.Conversion
import JsonTemplate.Proofs.Evaluation.Errors

/-! Arithmetic on integers. An operation on integers of 64 bits gives the exact result if it has
64 bits as well. Otherwise the result is no integer, and nothing that is computed from it is one. -/

namespace JsonTemplate

/-! ### Single operations -/

/-- A result that is no integer: a float, or an error of arithmetic. -/
inductive LeavesIntegers : EvalResult → Prop
  | float (x : Float) : LeavesIntegers (.ok (.number (.float x)))
  | error {e : EvalError} (h : e.kind = .arithmetic) : LeavesIntegers (.error e)

theorem LeavesIntegers.ne_int {r : EvalResult} (h : LeavesIntegers r) (k : Int) :
    r ≠ .ok (.int k) := by
  cases h <;> nofun

theorem LeavesIntegers.failsWith {r : EvalResult} (h : LeavesIntegers r) :
    FailsWith [.arithmetic] r := by
  cases h with
  | float x => exact failsWith_ok _
  | error h => exact failsWith_error (by simp [h])

/-- Once out of the integers, a result stays out if floats stay out. -/
theorem LeavesIntegers.bind {r : EvalResult} {f : Value → EvalResult} (h : LeavesIntegers r)
    (hf : ∀ x, LeavesIntegers (f (.number (.float x)))) : LeavesIntegers (r >>= f) := by
  cases h with
  | float x => exact hf x
  | error h => exact .error h

/-- The exact result of an operation on integers. A remainder has the sign of the dividend. -/
def BinaryOp.exactValue? (op : BinaryOp) (m n : Int) : Option Int :=
  match op with
  | .add => some (m + n)
  | .subtract => some (m - n)
  | .multiply => some (m * n)
  | .modulo => if n = 0 then none else some (m.tmod n)
  | _ => none

/-- The operators that give an exact result. -/
def BinaryOp.IsExact (op : BinaryOp) : Prop :=
  op = .add ∨ op = .subtract ∨ op = .multiply ∨ op = .modulo

/-- The result is the exact one if there is one of 64 bits, and no integer otherwise. -/
def ExactOrLeaves (exact : Option Int) (r : EvalResult) : Prop :=
  (∃ k, exact = some k ∧ isInt64 k ∧ r = .ok (.int k)) ∨
    (∀ k, exact = some k → ¬isInt64 k) ∧ LeavesIntegers r

namespace Number

theorem leaves_finite (x : Float) : LeavesIntegers (finite x) := by
  unfold finite
  split
  · exact .float x
  · exact .error rfl

theorem exactOr_exact (n : Int) (x : Float) : ExactOrLeaves (some n) (exactOr n x) := by
  unfold exactOr
  split
  · next h => exact .inl ⟨n, rfl, h, rfl⟩
  · next h => exact .inr ⟨by rintro k ⟨⟩; exact h, leaves_finite x⟩

theorem words?_float_left (x : Float) (b : Number) : words? (.float x) b = none := rfl

theorem words?_float_right (a : Number) (x : Float) : words? a (.float x) = none := by
  unfold words?
  cases a.word? <;> rfl

section
variable (exact : Int → Int → Int) (rounded : Float → Float → Float)

theorem combine_exact {m n : Int} (hm : isInt64 m) (hn : isInt64 n) :
    ExactOrLeaves (some (exact m n)) (combine exact rounded (.int m) (.int n)) := by
  rw [combine, words?_int hm hn]
  exact exactOr_exact _ _

theorem combine_leaves {a b : Number} (h : words? a b = none) :
    LeavesIntegers (combine exact rounded a b) := by
  rw [combine, h]
  exact leaves_finite _

end

/-- A remainder is not further from zero than the dividend. -/
theorem isInt64_tmod {m : Int} (hm : isInt64 m) (n : Int) : isInt64 (m.tmod n) := by
  have habs : (m.tmod n).natAbs ≤ m.natAbs := by
    rw [Int.natAbs_tmod]
    exact Nat.mod_le _ _
  have hnonneg : 0 ≤ m → 0 ≤ m.tmod n := Int.tmod_nonneg n
  have hnonpos : m ≤ 0 → m.tmod n ≤ 0 := by
    intro h
    have := Int.tmod_nonneg n (Int.neg_nonneg_of_nonpos h)
    rw [Int.neg_tmod] at this
    omega
  have hmin := hm.1
  have hmax := hm.2
  constructor <;> omega

/-- The divisor is asked for zero as a float, and no other integer is converted to zero. -/
theorem modulo_exact {m n : Int} (hm : isInt64 m) (hn : isInt64 n) :
    ExactOrLeaves (BinaryOp.modulo.exactValue? m n) (modulo (.int m) (.int n)) := by
  have hzero : ((Number.int n).toFloat == 0) = true ↔ n = 0 :=
    Decimal.ofInt_beq_zero (by have := hn.1; have := hn.2; omega)
  rw [modulo, words?_int hm hn, BinaryOp.exactValue?]
  by_cases h : n = 0
  · rw [if_pos h, if_pos (hzero.2 h)]
    exact .inr ⟨nofun, .error rfl⟩
  · rw [if_neg h, if_neg (mt hzero.1 h)]
    exact .inl ⟨_, rfl, isInt64_tmod hm n, rfl⟩

theorem modulo_leaves {a b : Number} (h : words? a b = none) : LeavesIntegers (modulo a b) := by
  rw [modulo, h]
  split
  · exact .error rfl
  · exact leaves_finite _

theorem divide_leaves (a b : Number) : LeavesIntegers (divide a b) := by
  unfold divide
  split
  · exact .error rfl
  · exact leaves_finite _

theorem negate_exact {n : Int} (hn : isInt64 n) :
    ExactOrLeaves (some (-n)) (negate (.int n)) := by
  rw [negate, word?_int hn]
  exact exactOr_exact _ _

theorem negate_leaves {a : Number} (h : a.word? = none) : LeavesIntegers a.negate := by
  rw [negate, h]
  exact leaves_finite _

theorem abs_exact {n : Int} (hn : isInt64 n) :
    ExactOrLeaves (some n.natAbs) (abs (.int n)) := by
  rw [abs, word?_int hn]
  exact exactOr_exact _ _

theorem abs_leaves {a : Number} (h : a.word? = none) : LeavesIntegers a.abs := by
  rw [abs, h]
  exact leaves_finite _

end Number

open Number

namespace BinaryOp

variable {op : BinaryOp}

/-- An operation on two integers of 64 bits. -/
theorem apply_exact (hop : op.IsExact) {m n : Int} (hm : isInt64 m) (hn : isInt64 n) :
    ExactOrLeaves (op.exactValue? m n) (op.apply (.int m) (.int n)) := by
  rcases hop with rfl | rfl | rfl | rfl
  · exact combine_exact _ _ hm hn
  · exact combine_exact _ _ hm hn
  · exact combine_exact _ _ hm hn
  · exact modulo_exact hm hn

/-- An operation on two numbers that are not both integers of 64 bits. -/
theorem apply_leaves (hop : op.IsExact) {a b : Number} (h : words? a b = none) :
    LeavesIntegers (op.apply (.number a) (.number b)) := by
  rcases hop with rfl | rfl | rfl | rfl
  · exact combine_leaves _ _ h
  · exact combine_leaves _ _ h
  · exact combine_leaves _ _ h
  · exact modulo_leaves h

end BinaryOp

/-! ### Expressions -/

namespace Expr

section
variable (o : Options) (context : Fields Value)

/-- The integer that a name stands for. -/
def integer? (name : String) : Option Int :=
  match Scope.get? ⟨context, o.globals⟩ name with
  | some (.number (.int n)) => some n
  | _ => none

/-- Literals, variables, parentheses, negation and the exact operators, on integers of 64 bits. -/
inductive IsInteger : Expr → Prop
  | int {span : Span} {n : Int} (hn : isInt64 n) : IsInteger (.int span n)
  | identifier {span : Span} {name : String} {n : Int} (hname : integer? o context name = some n)
    (hn : isInt64 n) : IsInteger (.identifier span name)
  | paren {span : Span} {inner : Expr} (h : IsInteger inner) : IsInteger (.paren span inner)
  | negate {span : Span} {operand : Expr} (h : IsInteger operand) :
    IsInteger (.unary span .negate operand)
  | binary {span : Span} {op : BinaryOp} {left right : Expr} (hop : op.IsExact)
    (hleft : IsInteger left) (hright : IsInteger right) : IsInteger (.binary span op left right)

/-- The integer that an expression stands for, of whatever size. -/
def exactValue? : Expr → Option Int
  | .int _ n => some n
  | .identifier _ name => integer? o context name
  | .paren _ inner => inner.exactValue?
  | .unary _ .negate operand => operand.exactValue?.map (- ·)
  | .binary _ op left right => do op.exactValue? (← left.exactValue?) (← right.exactValue?)
  | _ => none

/-- Every part of an expression stands for an integer of 64 bits. -/
def Fits (e : Expr) : Prop := ∀ part ∈ e.subterms, ∃ n ∈ part.exactValue? o context, isInt64 n

instance (e : Expr) : Decidable (e.Fits o context) :=
  inferInstanceAs (Decidable (∀ part ∈ e.subterms, ∃ n ∈ part.exactValue? o context, isInt64 n))

end

section
variable {o : Options} {context : Fields Value} {e : Expr} {span : Span}

theorem fits_unary {op : UnaryOp} {operand : Expr} :
    (unary span op operand).Fits o context ↔
      (∃ n, (unary span op operand).exactValue? o context = some n ∧ isInt64 n) ∧
        operand.Fits o context :=
  List.forall_mem_cons

theorem fits_binary {op : BinaryOp} {left right : Expr} :
    (binary span op left right).Fits o context ↔
      (∃ n, (binary span op left right).exactValue? o context = some n ∧ isInt64 n) ∧
        left.Fits o context ∧ right.Fits o context := by
  rw [Fits, subterms, List.forall_mem_cons, List.forall_mem_append]
  rfl

theorem fits_paren {inner : Expr} :
    (paren span inner).Fits o context ↔ inner.Fits o context := by
  rw [Fits, subterms, List.forall_mem_cons]
  exact ⟨fun h => h.2, fun h => ⟨h inner inner.mem_subterms_self, h⟩⟩

/-- If everything fits, the value is the exact one, and otherwise it is no integer. -/
def Settled (o : Options) (context : Fields Value) (e : Expr) : Prop :=
  (e.Fits o context ∧
    ∃ k, e.exactValue? o context = some k ∧ isInt64 k ∧ e.eval o context = .ok (.int k)) ∨
  (¬e.Fits o context ∧ LeavesIntegers (e.eval o context))

/-- If all operands fit, the operation decides. -/
theorem settled_of_exactOrLeaves {operands : Prop}
    (hparts : e.Fits o context ↔
      (∃ n, e.exactValue? o context = some n ∧ isInt64 n) ∧ operands)
    (hoperands : operands) (h : ExactOrLeaves (e.exactValue? o context) (e.eval o context)) :
    e.Settled o context := by
  rw [Settled, hparts]
  rcases h with ⟨k, hk, h64, hok⟩ | ⟨hnone, hleaves⟩
  · exact .inl ⟨⟨⟨k, hk, h64⟩, hoperands⟩, k, hk, h64, hok⟩
  · exact .inr ⟨fun ⟨⟨k, hk, h64⟩, _⟩ => hnone k hk h64, hleaves⟩

theorem settled_negate {operand : Expr} (h : operand.Settled o context) :
    (unary span .negate operand).Settled o context := by
  rcases h with ⟨hfits, n, hexact, hn, heval⟩ | ⟨hfits, hleaves⟩
  · have hresult : (unary span .negate operand).eval o context = negate (.int n) := by
      simp only [eval, heval]
      rfl
    have hwhole : (unary span .negate operand).exactValue? o context = some (-n) := by
      rw [exactValue?, hexact]
      rfl
    refine settled_of_exactOrLeaves fits_unary hfits ?_
    rw [hwhole, hresult]
    exact negate_exact hn
  · refine .inr ⟨fun h => hfits (fits_unary.1 h).2, ?_⟩
    rw [eval]
    exact hleaves.bind fun x =>
      show LeavesIntegers (negate (.float x)) from negate_leaves rfl

theorem settled_binary {op : BinaryOp} {left right : Expr} (hop : op.IsExact)
    (hleft : left.Settled o context) (hright : right.Settled o context) :
    (binary span op left right).Settled o context := by
  rcases hleft with ⟨hfits, m, hm, hm64, hevalLeft⟩ | ⟨hfits, hleaves⟩
  · rcases hright with ⟨hfits', n, hn, hn64, hevalRight⟩ | ⟨hfits', hleaves⟩
    · have hresult : (binary span op left right).eval o context = op.apply (.int m) (.int n) := by
        simp only [eval, hevalLeft, hevalRight]
        rfl
      have hwhole : (binary span op left right).exactValue? o context = op.exactValue? m n := by
        rw [exactValue?, hm, hn]
        rfl
      refine settled_of_exactOrLeaves fits_binary ⟨hfits, hfits'⟩ ?_
      rw [hwhole, hresult]
      exact BinaryOp.apply_exact hop hm64 hn64
    · refine .inr ⟨fun h => hfits' (fits_binary.1 h).2.2, ?_⟩
      rw [eval, hevalLeft]
      exact hleaves.bind fun x => BinaryOp.apply_leaves hop (words?_float_right _ x)
  · refine .inr ⟨fun h => hfits (fits_binary.1 h).2.1, ?_⟩
    rw [eval]
    -- the right operand is evaluated all the same, and may be an integer
    refine hleaves.bind fun x => ?_
    rcases hright with ⟨-, n, -, -, hevalRight⟩ | ⟨-, hleaves'⟩
    · rw [hevalRight]
      exact BinaryOp.apply_leaves hop (words?_float_left x _)
    · exact hleaves'.bind fun y => BinaryOp.apply_leaves hop (words?_float_left x _)

theorem get?_of_integer? {name : String} {n : Int} (h : integer? o context name = some n) :
    Scope.get? ⟨context, o.globals⟩ name = some (.int n) := by
  unfold integer? at h
  split at h
  · next hvalue =>
    cases h
    exact hvalue
  · cases h

/-- Every expression on integers is exact, or leaves the integers. -/
theorem settled_of_isInteger (h : e.IsInteger o context) : e.Settled o context := by
  induction h with
  | @int span n hn => exact .inl ⟨List.forall_mem_singleton.2 ⟨n, rfl, hn⟩, n, rfl, hn, rfl⟩
  | @identifier span name n hname hn =>
    refine .inl ⟨List.forall_mem_singleton.2 ⟨n, hname, hn⟩, n, hname, hn, ?_⟩
    rw [eval, get?_of_integer? hname]
    rfl
  | paren h ih =>
    rw [Settled, fits_paren]
    exact ih
  | negate h ih => exact settled_negate ih
  | binary hop hleft hright ihleft ihright => exact settled_binary hop ihleft ihright

end

end Expr

/-! ### Results that are integers -/

section
variable {m n k : Int}

theorem ExactOrLeaves.eq_some {exact : Option Int} {r : EvalResult} (h : ExactOrLeaves exact r)
    (hr : r = .ok (.int k)) : exact = some k := by
  rcases h with ⟨j, hexact, -, hj⟩ | ⟨-, hleaves⟩
  · rw [hr] at hj
    cases hj
    exact hexact
  · exact absurd hr (hleaves.ne_int k)

/-- Whatever the operator, an integer that comes of two integers is the exact result. -/
theorem BinaryOp.exactValue?_of_apply {op : BinaryOp}
    (h : op.apply (.int m) (.int n) = .ok (.int k)) : op.exactValue? m n = some k := by
  by_cases hop : op.IsExact
  · by_cases hwords : isInt64 m ∧ isInt64 n
    · exact (apply_exact hop hwords.1 hwords.2).eq_some h
    · exact absurd h ((apply_leaves hop (words?_eq_none hwords)).ne_int k)
  · cases op with
    | add | subtract | multiply | modulo => exact absurd (by simp [IsExact]) hop
    | divide => exact absurd h ((divide_leaves (.int m) (.int n)).ne_int k)
    | less | greater | lessEqual | greaterEqual =>
      simp only [apply, onOrder] at h
      split at h <;> cases h
    | equal | notEqual | isIn => cases h

theorem UnaryOp.eq_neg_of_apply {op : UnaryOp} (h : op.apply (.int n) = .ok (.int k)) :
    op = .negate ∧ k = -n := by
  cases op with
  | not => cases h
  | negate =>
    refine ⟨rfl, ?_⟩
    by_cases hn : isInt64 n
    · exact (Option.some.inj ((negate_exact hn).eq_some h)).symm
    · exact absurd h ((negate_leaves (word?_eq_none hn)).ne_int k)

theorem Builtin.eq_natAbs_of_call (h : Builtin.abs.call [.int n] = .ok (.int k)) :
    k = n.natAbs := by
  by_cases hn : isInt64 n
  · exact (Option.some.inj ((abs_exact hn).eq_some h)).symm
  · exact absurd h ((abs_leaves (word?_eq_none hn)).ne_int k)

end

/-- Integer expressions are exact or leave the integers. If the exact value of every part has 64
bits, the value of the expression is the exact one. Otherwise it is a float or an error of
arithmetic. No single operation gives an integer other than the exact one, and the operations on
the smallest integer whose result is too large do not fail. -/
theorem Expr.eval_integer_exact_or_leaves :
    (∀ o context (e : Expr), e.IsInteger o context →
      (e.Fits o context → ∃ k, e.exactValue? o context = some k ∧ e.eval o context = .ok (.int k)) ∧
      (¬e.Fits o context → LeavesIntegers (e.eval o context)) ∧
      FailsWith [.arithmetic] (e.eval o context)) ∧
    (∀ (op : BinaryOp) (m n k : Int),
      op.apply (.int m) (.int n) = .ok (.int k) → op.exactValue? m n = some k) ∧
    (∀ (op : UnaryOp) (n k : Int), op.apply (.int n) = .ok (.int k) → op = .negate ∧ k = -n) ∧
    (∀ n k : Int, Builtin.abs.call [.int n] = .ok (.int k) → k = n.natAbs) ∧
    UnaryOp.negate.apply (.int (-9223372036854775808)) =
      .ok (.number (.float 9223372036854775808.0)) ∧
    Builtin.abs.call [.int (-9223372036854775808)] =
      .ok (.number (.float 9223372036854775808.0)) ∧
    BinaryOp.modulo.apply (.int (-9223372036854775808)) (.int (-1)) = .ok (.int 0) := by
  refine ⟨fun o context e h => ?_, fun _ _ _ _ => BinaryOp.exactValue?_of_apply,
    fun _ _ _ => UnaryOp.eq_neg_of_apply, fun _ _ => Builtin.eq_natAbs_of_call, rfl, rfl, rfl⟩
  rcases settled_of_isInteger h with ⟨hfits, k, hexact, -, heval⟩ | ⟨hfits, hleaves⟩
  · refine ⟨fun _ => ⟨k, hexact, heval⟩, fun hnot => absurd hfits hnot, ?_⟩
    rw [heval]
    exact failsWith_ok _
  · exact ⟨fun h => absurd h hfits, fun _ => hleaves, hleaves.failsWith⟩

/-- `-n % 4` for 7 and `n + 1` for the greatest integer. -/
theorem Expr.eval_integer_remainder :
    (binary (.point .first) .modulo (unary (.point .first) .negate
        (identifier (.point .first) "n")) (int (.point .first) 4)).eval .empty [("n", .int 7)] =
      .ok (.int (-3)) ∧
    LeavesIntegers ((binary (.point .first) .add (identifier (.point .first) "n")
        (int (.point .first) 1)).eval .empty [("n", .int 9223372036854775807)]) := by
  constructor
  · obtain ⟨k, hexact, heval⟩ := (eval_integer_exact_or_leaves.1 .empty [("n", .int 7)]
      (binary (.point .first) .modulo (unary (.point .first) .negate
        (identifier (.point .first) "n")) (int (.point .first) 4))
      (.binary (.inr (.inr (.inr rfl))) (.negate (.identifier rfl (by decide)))
        (.int (by decide)))).1 (by decide)
    cases hexact
    exact heval
  · exact (eval_integer_exact_or_leaves.1 .empty [("n", .int 9223372036854775807)]
      (binary (.point .first) .add (identifier (.point .first) "n") (int (.point .first) 1))
      (.binary (.inl rfl) (.identifier rfl (by decide)) (.int (by decide)))).2.1 (by decide)

end JsonTemplate
