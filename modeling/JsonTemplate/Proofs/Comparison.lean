import JsonTemplate.Expr.Arithmetic
import JsonTemplate.Proofs.Decimal.Conversion

/-! Comparison of integers. Integers of 64 bits with sign are compared exactly. An integer that
needs its 64 bits without a sign is compared as a float, and counts as equal to all integers with
the same nearest float. Apart from that, comparison is exact. -/

namespace JsonTemplate

open Decimal (nearest nearest_mono)

/-- The integers that a document can hold: those of 64 bits, with sign or without. -/
def isDocumentInteger (n : Int) : Prop := -9223372036854775808 ≤ n ∧ n ≤ 18446744073709551615

instance (n : Int) : Decidable (isDocumentInteger n) := inferInstanceAs (Decidable (_ ∧ _))

/-- Two integers are compared as floats, and have the same nearest float. -/
def SameFloat (a b : Int) : Prop := ¬(isInt64 a ∧ isInt64 b) ∧ nearest a = nearest b

instance (a b : Int) : Decidable (SameFloat a b) := inferInstanceAs (Decidable (_ ∧ _))

variable {a b c : Int}

theorem isDocumentInteger.natAbs_lt (h : isDocumentInteger a) : a.natAbs < 2 ^ 64 := by
  have hmin := h.1
  have hmax := h.2
  omega

theorem compare_nearest (a b : Int) :
    compare (nearest a) (nearest b) = if nearest a = nearest b then .eq else compare a b := by
  split
  · next h => rw [compare_eq_iff_eq.2 h]
  · next h =>
    rcases Int.lt_trichotomy a b with hlt | rfl | hgt
    · rw [compare_lt_iff_lt.2 hlt, compare_lt_iff_lt.2 (lt_of_le_of_ne (nearest_mono hlt.le) h)]
    · exact absurd rfl h
    · rw [compare_gt_iff_gt.2 hgt,
        compare_gt_iff_gt.2 (lt_of_le_of_ne (nearest_mono hgt.le) (Ne.symm h))]

namespace Value

theorem equal_int (ha : isDocumentInteger a) (hb : isDocumentInteger b) :
    Value.equal (.int a) (.int b) = true ↔ a = b ∨ SameFloat a b := by
  change Number.sameQuantity (.int a) (.int b) = true ↔ _
  unfold Number.sameQuantity SameFloat
  by_cases h : isInt64 a ∧ isInt64 b
  · rw [Number.words?_int h.1 h.2]
    simp [h]
  · rw [Number.words?_eq_none h]
    refine (Decimal.beq_ofInt ha.natAbs_lt hb.natAbs_lt).trans ⟨fun hab => .inr ⟨h, hab⟩, ?_⟩
    rintro (rfl | ⟨-, hab⟩)
    · rfl
    · exact hab

theorem compare?_int (ha : isDocumentInteger a) (hb : isDocumentInteger b) :
    Value.compare? (.int a) (.int b) = some (if SameFloat a b then .eq else compare a b) := by
  change Number.compare? (.int a) (.int b) = _
  unfold Number.compare?
  by_cases h : isInt64 a ∧ isInt64 b
  · have hsame : ¬SameFloat a b := fun hsame => hsame.1 h
    rw [Number.words?_int h.1 h.2, if_neg hsame]
  · have hsame : SameFloat a b ↔ nearest a = nearest b := and_iff_right h
    rw [Number.words?_eq_none h]
    refine (Decimal.compareFloats?_ofInt ha.natAbs_lt hb.natAbs_lt).trans ?_
    simp only [compare_nearest, hsame]

/-- Equality goes by way of a third integer, unless two words are compared by way of one that is
no word. -/
theorem equal_int_trans (ha : isDocumentInteger a) (hb : isDocumentInteger b)
    (hc : isDocumentInteger c) (hword : isInt64 a → isInt64 c → isInt64 b)
    (hab : Value.equal (.int a) (.int b) = true) (hbc : Value.equal (.int b) (.int c) = true) :
    Value.equal (.int a) (.int c) = true := by
  rw [equal_int ha hb] at hab
  rw [equal_int hb hc] at hbc
  rw [equal_int ha hc]
  by_cases h : isInt64 a ∧ isInt64 c
  · have hb64 := hword h.1 h.2
    have heq : a = b := hab.resolve_right fun hsame => hsame.1 ⟨h.1, hb64⟩
    have heq' : b = c := hbc.resolve_right fun hsame => hsame.1 ⟨hb64, h.2⟩
    exact .inl (heq.trans heq')
  · have hnearest : nearest a = nearest b := hab.elim (congrArg nearest) (·.2)
    have hnearest' : nearest b = nearest c := hbc.elim (congrArg nearest) (·.2)
    exact .inr ⟨h, hnearest.trans hnearest'⟩

/-- Of two integers exactly one is less, equal or greater, and this is the exact order unless they
are compared as floats and have the same nearest one. -/
theorem compare_integers (ha : isDocumentInteger a) (hb : isDocumentInteger b) :
    (Value.equal (.int a) (.int b) = true ↔ a = b ∨ SameFloat a b) ∧
    Value.compare? (.int a) (.int b) = some (if SameFloat a b then .eq else compare a b) ∧
    (∃ order : Ordering,
      BinaryOp.less.apply (.int a) (.int b) = .ok (.bool order.isLT) ∧
      BinaryOp.equal.apply (.int a) (.int b) = .ok (.bool order.isEq) ∧
      BinaryOp.greater.apply (.int a) (.int b) = .ok (.bool order.isGT)) ∧
    ∀ c, isDocumentInteger c → (isInt64 a → isInt64 c → isInt64 b) →
      Value.equal (.int a) (.int b) = true → Value.equal (.int b) (.int c) = true →
      Value.equal (.int a) (.int c) = true := by
  have hequal := equal_int ha hb
  have horder := compare?_int ha hb
  have heq : Value.equal (.int a) (.int b) =
      (if SameFloat a b then .eq else compare a b : Ordering).isEq := by
    rw [Bool.eq_iff_iff, hequal]
    by_cases h : SameFloat a b
    · simp [h]
    · simp [h, Ordering.isEq_iff_eq_eq]
  refine ⟨hequal, horder, ⟨if SameFloat a b then .eq else compare a b, ?_, ?_, ?_⟩,
    fun c hc => equal_int_trans ha hb hc⟩
  · simp only [BinaryOp.apply, BinaryOp.onOrder, horder]
  · rw [BinaryOp.apply, heq]
  · simp only [BinaryOp.apply, BinaryOp.onOrder, horder]

/-- The greatest word, and an integer behind it with another nearest float. -/
theorem compare_integers_beyond_words :
    Value.equal (.int 9223372036854775807) (.int 9223372036854777856) = false ∧
    Value.compare? (.int 9223372036854775807) (.int 9223372036854777856) = some .lt := by
  have hdiffer : ¬SameFloat 9223372036854775807 9223372036854777856 := by decide +kernel
  obtain ⟨hequal, horder, -⟩ := compare_integers (a := 9223372036854775807)
    (b := 9223372036854777856) (by decide) (by decide)
  rw [if_neg hdiffer] at horder
  refine ⟨?_, horder⟩
  rw [Bool.eq_false_iff, Ne, hequal]
  exact fun h => h.elim (by decide) hdiffer

/-- The greatest word counts as equal to its successor, which is no word. So does the word before
it, and the two words are not equal to each other. -/
theorem words_equal_to_successor :
    Value.equal (.int 9223372036854775807) (.int 9223372036854775808) = true ∧
    Value.compare? (.int 9223372036854775807) (.int 9223372036854775808) = some .eq ∧
    Value.equal (.int 9223372036854775806) (.int 9223372036854775808) = true ∧
    Value.equal (.int 9223372036854775808) (.int 9223372036854775807) = true ∧
    Value.equal (.int 9223372036854775806) (.int 9223372036854775807) = false := by
  decide +kernel

end Value

end JsonTemplate
