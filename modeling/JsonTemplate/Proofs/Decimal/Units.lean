import JsonTemplate.Decimal.Binary
import JsonTemplate.Value.Number
import Mathlib

/-! Finite floats as integers. Every finite float is a multiple of the least positive one, and
floats are compared as these multiples are. -/

namespace JsonTemplate.Decimal

open Float.Model (UnpackedFloat Format)
open Float.Model.UnpackedFloat

/-! ### Units -/

/-- The value `m * 2 ^ e`, counted in units of the least positive float, which is `2 ^ -1074`. -/
def scaled (m : Nat) (e : Int) : Nat := m * 2 ^ (e + 1074).toNat

/-- The number of units in one. -/
def unitsInOne : Nat := scaled 1 0

/-- What an unpacked float stands for, in units of the least positive float. -/
def unitsOf? : UnpackedFloat → Option Int
  | .zero _ => some 0
  | .finite s m e _ => some (signed (isNegative s) (scaled m e))
  | .infinity _ | .notANumber => none

/-- What a float stands for, in units of the least positive float, if it is finite. -/
def units? (x : Float) : Option Int := unitsOf? x.toModel.unpack

theorem scaled_pos {m : Nat} (h : 0 < m) (e : Int) : 0 < scaled m e :=
  Nat.mul_pos h (Nat.two_pow_pos _)

theorem unitsInOne_pos : 0 < unitsInOne := scaled_pos Nat.one_pos 0

/-- A bit that the mantissa gains is worth one of the exponent. -/
theorem scaled_mul_two_pow (m k : Nat) {e : Int} (he : -1074 ≤ e - k) :
    scaled (m * 2 ^ k) (e - k) = scaled m e := by
  rw [scaled, scaled, Nat.mul_assoc, ← Nat.pow_add]
  congr 2
  omega

theorem scaled_zero (n : Nat) : scaled n 0 = n * unitsInOne := by
  rw [unitsInOne, scaled, scaled, Nat.one_mul]

/-! ### The form of packed floats -/

/-- The mantissa of a finite float has 53 bits at most, and all of them above the least exponent. -/
structure Canonical (m : Nat) (e : Int) : Prop where
  lt : m < 2 ^ 53
  le : -1074 ≤ e
  normal : e = -1074 ∨ 2 ^ 52 ≤ m

/-- The first bit of a mantissa that is not stored. -/
theorem toNat_implicit (v : BitVec 52) : (1#1 ++ v).toNat = 2 ^ 52 + v.toNat := by
  have hor := Nat.two_pow_add_eq_or_of_lt v.isLt 1
  rw [Nat.mul_one] at hor
  rw [BitVec.toNat_append, hor]
  rfl

theorem exponentBias_binary64 : Format.binary64.exponentBias = 1023 := by decide

theorem canonical_unpack {b : BitVec Format.binary64.numBits} {s : Sign} {m : Nat} {e : Int}
    {h : 0 < m} (hb : unpack Format.binary64 b = .finite s m e h) : Canonical m e := by
  have hlt : (unpackMantissa b).toNat < 2 ^ 52 := (unpackMantissa b).isLt
  unfold unpack at hb
  simp only [exponentBias_binary64] at hb
  split at hb
  · split at hb <;> cases hb
  · split at hb
    · next hzero =>
      split at hb
      · cases hb
      · cases hb
        rw [hzero]
        exact ⟨by omega, by decide, .inl (by decide)⟩
    · next hzero =>
      have hpos : 0 < (unpackExponent b).toNat := BitVec.toNat_pos_of_ne_zero hzero
      cases hb
      have hm : (1#1 ++ unpackMantissa b).toNat = 2 ^ 52 + (unpackMantissa b).toNat :=
        toNat_implicit _
      rw [hm]
      exact ⟨by omega, by simp; omega, .inr (by omega)⟩

/-- A float is canonical if it is not finite or its mantissa and exponent are. -/
def IsCanonical : UnpackedFloat → Prop
  | .finite _ m e _ => Canonical m e
  | _ => True

theorem isCanonical_unpack (b : BitVec Format.binary64.numBits) :
    IsCanonical (unpack Format.binary64 b) := by
  cases hb : unpack Format.binary64 b with
  | finite s m e h => exact canonical_unpack hb
  | notANumber | infinity | zero => trivial

theorem finite_congr {s : Sign} {m n : Nat} {e f : Int} {hm : 0 < m} {hn : 0 < n}
    (hmantissa : m = n) (hexponent : e = f) :
    UnpackedFloat.finite s m e hm = .finite s n f hn := by
  subst hmantissa hexponent
  rfl

/-- A float with all its bits is kept when it is packed, up to the greatest exponent. -/
theorem unpack_pack {s : Sign} {m : Nat} {e : Int} (hlow : 2 ^ 52 ≤ m) (hlt : m < 2 ^ 53)
    (hge : -1074 ≤ e) (hle : e ≤ 971) (h : 0 < m) :
    unpack Format.binary64 (pack Format.binary64 (.finite s m e h)) = .finite s m e h := by
  have hlog : m.log2 = 52 := (Nat.log2_eq_iff h.ne').2 ⟨hlow, hlt⟩
  obtain ⟨biased, rfl⟩ : ∃ biased : Nat, e = biased - 1075 := ⟨(e + 1075).toNat, by omega⟩
  have hexponent : (BitVec.ofNat 11 biased).toNat = biased := by
    rw [BitVec.toNat_ofNat, Nat.mod_eq_of_lt (by omega)]
  have hmantissa : (BitVec.ofNat 52 m).toNat = m - 2 ^ 52 := by
    rw [BitVec.toNat_ofNat]
    omega
  have hpack : pack Format.binary64 (.finite s m (biased - 1075) h) =
      packComponents Format.binary64 s (BitVec.ofNat 11 biased) (BitVec.ofNat 52 m) := by
    have hbiased : ((biased : Int) - 1075 + (1023 : Nat) + (52 : Nat)).toNat = biased := by omega
    unfold pack
    simp only [exponentBias_binary64, hlog, hbiased]
    rw [if_neg (by omega), if_pos (show 52 + 1 = Format.binary64.mantissaBits from rfl)]
  have hnotZero : BitVec.ofNat 11 biased ≠ 0#11 := by
    intro hzero
    rw [hzero, BitVec.toNat_ofNat] at hexponent
    omega
  have hnotOnes : BitVec.ofNat 11 biased ≠ -1#11 := by
    intro hones
    rw [hones] at hexponent
    simp at hexponent
    omega
  rw [hpack, unpack]
  simp only [unpackMantissa_packComponents, unpackExponent_packComponents,
    unpackSign_packComponents, Sign.ofBitVec_toBitVec, exponentBias_binary64]
  rw [if_neg hnotOnes, if_neg hnotZero]
  apply finite_congr
  · rw [toNat_implicit, hmantissa]
    omega
  · rw [hexponent]
    omega

/-! ### Order -/

section
variable {m n : Nat} {e f : Int}

/-- The greater exponent decides, as the mantissa that goes with it has all its bits. -/
theorem Canonical.scaled_lt (hm : Canonical m e) (hn : Canonical n f) (h : e < f) :
    scaled m e < scaled n f := by
  have hle := hm.le
  have hnormal : 2 ^ 52 ≤ n := hn.normal.resolve_left (by omega)
  calc
    m * 2 ^ (e + 1074).toNat < 2 ^ 53 * 2 ^ (e + 1074).toNat :=
      Nat.mul_lt_mul_of_pos_right hm.lt (Nat.two_pow_pos _)
    _ = 2 ^ 52 * 2 ^ ((e + 1074).toNat + 1) := by rw [Nat.pow_succ]; omega
    _ ≤ n * 2 ^ (f + 1074).toNat :=
      Nat.mul_le_mul hnormal (Nat.pow_le_pow_right (by decide) (by omega))

theorem Canonical.compares (hm : Canonical m e) (hn : Canonical n f) :
    ((compare e f).then (compare m n)).Compares (scaled m e : Int) (scaled n f) := by
  rcases Int.lt_trichotomy e f with hlt | rfl | hgt
  · rw [compare_lt_iff_lt.2 hlt]
    exact Int.ofNat_lt.2 (hm.scaled_lt hn hlt)
  · have hpos := Nat.two_pow_pos (e + 1074).toNat
    rw [compare_eq_iff_eq.2 rfl]
    rcases Nat.lt_trichotomy m n with hlt | rfl | hgt
    · rw [compare_lt_iff_lt.2 hlt]
      exact Int.ofNat_lt.2 (Nat.mul_lt_mul_of_pos_right hlt hpos)
    · rw [compare_eq_iff_eq.2 rfl]
      exact rfl
    · rw [compare_gt_iff_gt.2 hgt]
      exact Int.ofNat_lt.2 (Nat.mul_lt_mul_of_pos_right hgt hpos)
  · rw [compare_gt_iff_gt.2 hgt]
    exact Int.ofNat_lt.2 (hn.scaled_lt hm hgt)

end

theorem compares_neg {o : Ordering} {i j : Int} (h : o.Compares i j) :
    o.swap.Compares (-i) (-j) := by
  cases o with
  | lt => exact Int.neg_lt_neg h
  | eq => exact congrArg _ h
  | gt => exact Int.neg_lt_neg h

/-- Two canonical floats have the order of what they stand for. -/
theorem exists_compare {u v : UnpackedFloat} {i j : Int} (hu : IsCanonical u) (hv : IsCanonical v)
    (hi : unitsOf? u = some i) (hj : unitsOf? v = some j) :
    ∃ o, u.compare v = some o ∧ o.Compares i j := by
  cases u with
  | notANumber | infinity => cases hi
  | zero s =>
    cases hi
    cases v with
    | notANumber | infinity => cases hj
    | zero t =>
      cases hj
      exact ⟨.eq, rfl, rfl⟩
    | finite t n f hn =>
      cases hj
      have hpos : 0 < (scaled n f : Int) := Int.ofNat_lt.2 (scaled_pos hn f)
      cases t with
      | negative => exact ⟨.gt, rfl, Int.neg_neg_of_pos hpos⟩
      | positive => exact ⟨.lt, rfl, hpos⟩
  | finite s m e hm =>
    cases hi
    have hpos : 0 < (scaled m e : Int) := Int.ofNat_lt.2 (scaled_pos hm e)
    cases v with
    | notANumber | infinity => cases hj
    | zero t =>
      cases hj
      cases s with
      | negative => exact ⟨.lt, rfl, Int.neg_neg_of_pos hpos⟩
      | positive => exact ⟨.gt, rfl, hpos⟩
    | finite t n f hn =>
      cases hj
      have hpos' : 0 < (scaled n f : Int) := Int.ofNat_lt.2 (scaled_pos hn f)
      -- exponents and mantissas are looked at only if the signs agree
      cases s with
      | negative =>
        cases t with
        | negative => exact ⟨_, rfl, compares_neg (hu.compares hv)⟩
        | positive => exact ⟨.lt, rfl, (Int.neg_neg_of_pos hpos).trans hpos'⟩
      | positive =>
        cases t with
        | negative => exact ⟨.gt, rfl, (Int.neg_neg_of_pos hpos').trans hpos⟩
        | positive => exact ⟨_, rfl, hu.compares hv⟩

section
variable {x y : Float} {i j : Int} (hi : units? x = some i) (hj : units? y = some j)
include hi hj

theorem compare_units : x.toModel.unpack.compare y.toModel.unpack = some (compare i j) := by
  obtain ⟨o, ho, hij⟩ := exists_compare (isCanonical_unpack _) (isCanonical_unpack _) hi hj
  rw [(compare_iff i j).2 hij]
  exact ho

theorem beq_iff_units : (x == y) = true ↔ i = j := by
  change (x.toModel.unpack.compare y.toModel.unpack == some .eq) = true ↔ _
  rw [compare_units hi hj]
  simp

theorem lt_iff_units : x < y ↔ i < j := by
  change decide ((x.toModel.unpack.compare y.toModel.unpack == some .lt) = true) = true ↔ _
  rw [compare_units hi hj]
  simpa using compare_lt_iff_lt

/-- Two finite floats have the order of what they stand for. -/
theorem compareFloats?_eq_compare : Number.compareFloats? x y = some (compare i j) := by
  unfold Number.compareFloats?
  rcases Int.lt_trichotomy i j with hlt | rfl | hgt
  · rw [if_pos ((lt_iff_units hi hj).2 hlt), compare_lt_iff_lt.2 hlt]
  · rw [if_neg (mt (lt_iff_units hi hj).1 (Int.lt_irrefl i)), if_pos ((beq_iff_units hi hj).2 rfl),
      compare_eq_iff_eq.2 rfl]
  · rw [if_neg (mt (lt_iff_units hi hj).1 (by omega)),
      if_neg (mt (beq_iff_units hi hj).1 (by omega)), if_pos ((lt_iff_units hj hi).2 hgt),
      compare_gt_iff_gt.2 hgt]

end

end JsonTemplate.Decimal
