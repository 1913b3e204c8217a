import JsonTemplate.Proofs.Decimal.Rounding
import JsonTemplate.Proofs.Decimal.Units

/-! Integers as floats. The conversion of an integer of 64 bits gives the nearest float, and
integers that are compared as floats are compared as rounded integers are. -/

namespace JsonTemplate.Decimal

open Float.Model (UnpackedFloat Format totalExponent)
open Float.Model.UnpackedFloat

/-! ### Rounding a mantissa -/

/-- What is left of a mantissa after it has lost `k` bits, and what they were worth. -/
theorem shiftRight_eq (m k : Nat) :
    ExtendedMantissa.ofMantissaAndAccuracy m .exact >>> k =
      ⟨m / 2 ^ k, decide (2 ^ k ≤ 2 * (m % 2 ^ k)), decide (2 * (m % 2 ^ k) % 2 ^ k ≠ 0)⟩ := by
  induction k with
  | zero =>
    change ExtendedMantissa.ofMantissaAndAccuracy m .exact = _
    simp [ExtendedMantissa.ofMantissaAndAccuracy, Nat.mod_one]
  | succ k ih =>
    change (ExtendedMantissa.ofMantissaAndAccuracy m .exact >>> k).shiftRightOne = _
    have hlt := Nat.mod_lt m (Nat.two_pow_pos k)
    have hbit := Nat.mod_two_eq_zero_or_one (m / 2 ^ k)
    rw [ih, ExtendedMantissa.shiftRightOne, Nat.mod_pow_succ, Nat.pow_succ,
      ← Nat.div_div_eq_div_mul]
    have hlost : 2 * (m % 2 ^ k + 2 ^ k * (m / 2 ^ k % 2)) % (2 ^ k * 2) = 2 * (m % 2 ^ k) := by
      rw [Nat.mul_comm (2 ^ k) 2, Nat.mul_mod_mul_left, Nat.add_mul_mod_self_left,
        Nat.mod_eq_of_lt hlt]
    rw [hlost]
    generalize 2 ^ k = unit at *
    congr 1
    · rcases hbit with h | h <;> simp [h] <;> omega
    · rw [← Bool.decide_or]
      apply decide_eq_decide.2
      rcases Nat.lt_or_ge (2 * (m % unit)) unit with h | h
      · rw [Nat.mod_eq_of_lt h]
        omega
      · omega

/-- Rounding what is left is rounding the quotient. -/
theorem roundedMantissa_shiftRight (m k : Nat) :
    (ExtendedMantissa.ofMantissaAndAccuracy m .exact >>> k).roundedMantissa =
      roundedQuotient m (2 ^ k) := by
  have hlt := Nat.mod_lt m (Nat.two_pow_pos k)
  rw [shiftRight_eq, roundedQuotient]
  generalize 2 ^ k = unit at *
  rcases Nat.lt_or_ge (2 * (m % unit)) unit with hless | hmore
  · rw [if_pos (.inl hless), decide_eq_false (by omega)]
    cases decide (2 * (m % unit) % unit ≠ 0) <;> rfl
  · have hrest : 2 * (m % unit) % unit = 2 * (m % unit) - unit := by
      rw [Nat.mod_eq_sub_mod hmore, Nat.mod_eq_of_lt (by omega)]
    rw [decide_eq_true hmore, hrest]
    by_cases hhalf : 2 * (m % unit) = unit
    · rw [decide_eq_false (by omega)]
      change m / unit + m / unit % 2 = _
      split <;> omega
    · rw [if_neg (by omega), decide_eq_true (by omega)]
      rfl

theorem targetExponent_binary64 (m : Nat) (e : Int) :
    Format.binary64.targetExponent (totalExponent m e) = max (m.log2 + e - 52) (-1074) := by
  have hbits : Format.binary64.mantissaBits = 53 := rfl
  have hmin : Format.binary64.minExponent = -1074 := by decide
  rw [Format.targetExponent, totalExponent, hbits, hmin]
  omega

theorem shiftToTargetExponent_eq {m : Nat} {e : Int} (hm : 52 ≤ m.log2) (he : -1074 ≤ e) :
    shiftToTargetExponent Format.binary64 m e .exact =
      (ExtendedMantissa.ofMantissaAndAccuracy m .exact >>> (m.log2 - 52),
        e + (m.log2 - 52 : Nat)) := by
  have htarget : Format.binary64.targetExponent (totalExponent m e) = e + (m.log2 - 52 : Nat) := by
    rw [targetExponent_binary64]
    omega
  have hamount : (e + (m.log2 - 52 : Nat) - e).toNat = m.log2 - 52 := by omega
  simp only [shiftToTargetExponent, shiftToExponent, htarget, hamount]

/-- A mantissa with all its bits is rounded to them, and once more if it has gained a bit. -/
theorem roundWithAccuracy_eq_dite {s : Sign} {m k r : Nat} {e : Int} (hk : m.log2 = 52 + k)
    (hr : roundedQuotient m (2 ^ k) = r) (hlow : 2 ^ 52 ≤ r) (he : -1074 ≤ e) :
    roundWithAccuracy Format.binary64 s m e .exact =
      if h : r / 2 ^ (r.log2 - 52) = 0 then .zero s
      else .finite s (r / 2 ^ (r.log2 - 52)) (e + k + (r.log2 - 52 : Nat))
        (Nat.pos_of_ne_zero h) := by
  have hfirst : 52 ≤ m.log2 := by omega
  have hsecond : 52 ≤ r.log2 := (Nat.le_log2 (by omega)).2 hlow
  simp only [roundWithAccuracy, shiftToTargetExponent_eq hfirst he, hk, Nat.add_sub_cancel_left,
    roundedMantissa_shiftRight, hr,
    shiftToTargetExponent_eq hsecond (show -1074 ≤ e + (k : Int) by omega)]
  simp only [shiftRight_eq]

/-- Rounding gives the nearest number, with all its bits. -/
theorem roundWithAccuracy_eq {s : Sign} {m : Nat} {e : Int} (hm : 2 ^ 52 ≤ m) (he : -1074 ≤ e) :
    ∃ rounded exponent h,
      roundWithAccuracy Format.binary64 s m e .exact = .finite s rounded exponent h ∧
      2 ^ 52 ≤ rounded ∧ rounded < 2 ^ 53 ∧
      e + m.log2 - 52 ≤ exponent ∧ exponent ≤ e + m.log2 - 51 ∧
      rounded * 2 ^ (exponent - e).toNat = nearestNat m := by
  have hlog : 52 ≤ m.log2 := (Nat.le_log2 (by omega)).2 hm
  obtain ⟨k, hk⟩ : ∃ k, m.log2 = 52 + k := ⟨_, (Nat.add_sub_of_le hlog).symm⟩
  obtain ⟨hnearest, hlow, hhigh⟩ := nearestNat_eq_mul (by omega) hk
  generalize hr : roundedQuotient m (2 ^ k) = r at hnearest hlow hhigh
  rw [roundWithAccuracy_eq_dite hk hr hlow he]
  rcases Nat.lt_or_eq_of_le hhigh with hlt | rfl
  · have hbits : r.log2 = 52 := (Nat.log2_eq_iff (by omega)).2 ⟨hlow, hlt⟩
    rw [dif_neg (by rw [hbits]; omega)]
    refine ⟨_, _, _, rfl, ?_⟩
    simp only [hbits, hk, Nat.sub_self, Nat.pow_zero, Nat.div_one]
    refine ⟨hlow, hlt, by omega, by omega, ?_⟩
    rw [hnearest, show (e + k + (0 : Nat) - e).toNat = k by omega]
  · -- the mantissa has grown to 54 bits, and the last of them is zero
    have hbits : (2 ^ 53).log2 = 53 := Nat.log2_two_pow
    rw [dif_neg (by rw [hbits]; decide)]
    refine ⟨_, _, _, rfl, ?_⟩
    simp only [hbits, hk]
    refine ⟨by decide, by decide, by omega, by omega, ?_⟩
    rw [hnearest, show (e + k + (53 - 52 : Nat) - e).toNat = 1 + k by omega, Nat.pow_add,
      ← Nat.mul_assoc]
    congr 1

/-! ### Conversion -/

/-- An unpacked float stands for `± n` units and has all its bits. The bound of its exponent tells
that it can be packed, since exponents beyond 971 are packed as infinity. -/
def HasUnits (u : UnpackedFloat) (s : Sign) (n : Nat) (most : Int) : Prop :=
  ∃ m e h, u = .finite s m e h ∧ 2 ^ 52 ≤ m ∧ m < 2 ^ 53 ∧ -52 ≤ e ∧ e ≤ most ∧ scaled m e = n

theorem hasUnits_round (s : Sign) {m : Nat} {e most : Int} (hm : 2 ^ 52 ≤ m) (he : -1074 ≤ e)
    (hleast : 0 ≤ e + m.log2) (hmost : e + m.log2 ≤ most + 51) :
    HasUnits (roundWithAccuracy Format.binary64 s m e .exact) s (scaled (nearestNat m) e) most := by
  obtain ⟨rounded, exponent, h, hround, hlow, hlt, hge, hle, hvalue⟩ :=
    roundWithAccuracy_eq (s := s) hm he
  have hlog : 52 ≤ m.log2 := (Nat.le_log2 (by omega)).2 hm
  refine ⟨rounded, exponent, h, hround, hlow, hlt, by omega, by omega, ?_⟩
  rw [scaled, scaled, ← hvalue, Nat.mul_assoc, ← Nat.pow_add]
  congr 2
  omega

theorem HasUnits.mono {u : UnpackedFloat} {s : Sign} {n : Nat} {most most' : Int}
    (h : HasUnits u s n most) (hmost : most ≤ most') : HasUnits u s n most' := by
  obtain ⟨m, e, hpos, hu, hlow, hlt, hge, hle, hvalue⟩ := h
  exact ⟨m, e, hpos, hu, hlow, hlt, hge, hle.trans hmost, hvalue⟩

theorem HasUnits.pack {u : UnpackedFloat} {s : Sign} {n : Nat} {most : Int}
    (h : HasUnits u s n most) (hmost : most ≤ 971) :
    HasUnits (Float.ofModel (.pack u)).toModel.unpack s n most := by
  obtain ⟨m, e, hpos, rfl, hlow, hlt, hge, hle, hvalue⟩ := h
  exact ⟨m, e, hpos, unpack_pack hlow hlt (by omega) (by omega) hpos, hlow, hlt, hge, hle, hvalue⟩

/-- The mantissa of a small integer is shifted until it has all its bits. -/
theorem ofUInt64_eq {n k : Nat} (hpos : 0 < n) (hlt : n < 2 ^ 64) (hk : n.log2 + k = 52) :
    ofUInt64 Format.binary64 n.toUInt64 =
      roundWithAccuracy Format.binary64 .positive (n * 2 ^ k) (0 - k) .exact := by
  have hword : n.toUInt64.toNat = n := UInt64.toNat_ofNat_of_lt (by rw [UInt64.size]; omega)
  have hsign : compare (n : Int) 0 = .gt := compare_gt_iff_gt.2 (Int.ofNat_lt.2 hpos)
  have hexponent : Format.binary64.targetExponent (totalExponent n 0) = 0 - k := by
    rw [targetExponent_binary64]
    omega
  have hshift : decreaseExponent n 0 (0 - k) = (n * 2 ^ k, 0 - (k : Int)) := by
    have hamount : (0 - (0 - (k : Int))).toNat = k := by omega
    rw [decreaseExponent, hamount, Nat.shiftLeft_eq]
  rw [ofUInt64, hword, ofNat, ofInt, UnpackedFloat.normalize, hsign]
  simp only [UnpackedFloat.round, Int.toNat_natCast, hexponent, hshift]

/-- An integer of 53 bits or less is converted exactly. -/
theorem hasUnits_toFloat {n : Nat} (hpos : 0 < n) (hlt : n < 2 ^ 53) :
    HasUnits n.toUInt64.toFloat.toModel.unpack .positive (n * unitsInOne) 1 := by
  have hlog : n.log2 < 53 := (Nat.log2_lt hpos.ne').2 hlt
  obtain ⟨k, hk⟩ : ∃ k, n.log2 + k = 52 := ⟨52 - n.log2, by omega⟩
  have hlog' := log2_mul_two_pow hpos.ne' k
  have hlow : 2 ^ 52 ≤ n * 2 ^ k := by
    rw [← hk, Nat.pow_add]
    exact Nat.mul_le_mul_right _ (Nat.log2_self_le hpos.ne')
  have hvalue : scaled (nearestNat (n * 2 ^ k)) (0 - k) = n * unitsInOne := by
    rw [nearestNat_mul_two_pow, nearestNat_of_lt hlt, ← scaled_zero]
    exact scaled_mul_two_pow n k (by omega)
  refine HasUnits.pack ?_ (by decide)
  rw [ofUInt64_eq hpos (by omega) hk, ← hvalue]
  exact hasUnits_round .positive hlow (by omega) (by omega) (by omega)

/-- A product with one is the other factor. -/
theorem HasUnits.mul_one {x : Float} {n : Nat} {most : Int}
    (h : HasUnits x.toModel.unpack .positive n most) (hmost : most ≤ 970) :
    HasUnits (x * Float.ofBits 0x3FF0000000000000).toModel.unpack .positive n (most + 1) := by
  obtain ⟨m, e, hpos, hx, hlow, hlt, hge, hle, rfl⟩ := h
  have hone : (Float.ofBits 0x3FF0000000000000).toModel.unpack =
      .finite .positive (2 ^ 52) (-52) (by decide) := rfl
  have hmul : UnpackedFloat.mul Format.binary64 x.toModel.unpack
        (Float.ofBits 0x3FF0000000000000).toModel.unpack =
      roundWithAccuracy Format.binary64 .positive (m * 2 ^ 52) (e + -52) .exact := by
    rw [hx, hone]
    rfl
  have hlog : (m * 2 ^ 52).log2 = 104 := by
    rw [log2_mul_two_pow hpos.ne', (Nat.log2_eq_iff hpos.ne').2 ⟨hlow, hlt⟩]
  have hvalue : scaled (nearestNat (m * 2 ^ 52)) (e + -52) = scaled m e := by
    rw [nearestNat_mul_two_pow, nearestNat_of_lt hlt]
    exact scaled_mul_two_pow m 52 (by omega)
  refine HasUnits.pack ?_ (by omega)
  rw [hmul, ← hvalue]
  exact hasUnits_round .positive (by omega) (by omega) (by omega) (by omega)

/-- A natural number is converted to the nearest float. -/
theorem hasUnits_ofNat {n : Nat} (hpos : 0 < n) (hlt : n < 2 ^ 64) :
    HasUnits (Float.ofNat n).toModel.unpack .positive (nearestNat n * unitsInOne) 12 := by
  change HasUnits (Float.ofScientific n false 0).toModel.unpack _ _ _
  rcases Nat.lt_or_ge n (2 ^ 53) with hsmall | hlarge
  · rw [Float.ofScientific, dif_pos ⟨hsmall, by decide⟩, nearestNat_of_lt hsmall]
    exact ((hasUnits_toFloat hpos hsmall).mul_one (by decide)).mono (by decide)
  · have hlog : 53 ≤ n.log2 ∧ n.log2 < 64 :=
      ⟨(Nat.le_log2 hpos.ne').2 hlarge, (Nat.log2_lt hpos.ne').2 hlt⟩
    have hlog' := log2_mul_two_pow hpos.ne' 53
    have hmul : ofScientific Format.binary64 n 0 =
        roundWithAccuracy Format.binary64 .positive (n * 2 ^ 53) (-53) .exact := by
      have hbound : (0 : Int) < 2 ^ Format.binary64.exponentBits := by decide
      rw [ofScientific, dif_neg hpos.ne', if_neg (by decide), if_neg (by omega),
        if_pos (by decide)]
      change roundWithAccuracy Format.binary64 .positive (n <<< 53 * 1) (-53) .exact = _
      rw [Nat.shiftLeft_eq, Nat.mul_one]
    have hvalue : scaled (nearestNat (n * 2 ^ 53)) (-53) = nearestNat n * unitsInOne := by
      rw [nearestNat_mul_two_pow, ← scaled_zero]
      exact scaled_mul_two_pow (nearestNat n) 53 (e := 0) (by decide)
    rw [Float.ofScientific, dif_neg (by omega)]
    refine HasUnits.pack ?_ (by decide)
    rw [← hvalue]
    change HasUnits (ofScientific Format.binary64 n 0) _ _ _
    rw [hmul]
    exact hasUnits_round .positive (by omega) (by omega) (by omega) (by omega)

theorem HasUnits.neg {u : UnpackedFloat} {n : Nat} {most : Int}
    (h : HasUnits u .positive n most) : HasUnits u.neg .negative n most := by
  obtain ⟨m, e, hpos, rfl, h⟩ := h
  exact ⟨m, e, hpos, rfl, h⟩

theorem HasUnits.units?_eq {x : Float} {s : Sign} {n : Nat} {most : Int}
    (h : HasUnits x.toModel.unpack s n most) : units? x = some (signed (isNegative s) n) := by
  obtain ⟨m, e, hpos, hx, hlow, hlt, hge, hle, rfl⟩ := h
  rw [units?, hx, unitsOf?]

theorem signed_mul (b : Bool) (m n : Nat) : signed b (m * n) = signed b m * n := by
  cases b <;> simp [signed]

/-- An integer is converted to the nearest float. -/
theorem units?_ofInt {n : Int} (h : n.natAbs < 2 ^ 64) :
    units? (Float.ofInt n) = some (nearest n * unitsInOne) := by
  cases n with
  | ofNat k =>
    rcases Nat.eq_zero_or_pos k with rfl | hpos
    · have hzero : units? (Float.ofInt 0) = some 0 := rfl
      have hnearest : nearest 0 = 0 := rfl
      rw [Int.ofNat_eq_natCast, Int.natCast_zero, hzero, hnearest, Int.zero_mul]
    · have hfloat : Float.ofInt (.ofNat k) = Float.ofNat k := rfl
      rw [hfloat, (hasUnits_ofNat hpos h).units?_eq, signed_mul, Int.ofNat_eq_natCast,
        nearest_natCast]
      rfl
  | negSucc k =>
    have hfloat : Float.ofInt (.negSucc k) =
        Float.ofModel (.pack (Float.ofNat (k + 1)).toModel.unpack.neg) := rfl
    have hunits := ((hasUnits_ofNat k.succ_pos h).neg.pack (by decide)).units?_eq
    rw [hfloat, hunits, signed_mul, Int.negSucc_eq, ← Int.natCast_succ, nearest_neg,
      nearest_natCast]
    rfl

section
variable {a b : Int} (ha : a.natAbs < 2 ^ 64) (hb : b.natAbs < 2 ^ 64)
include ha hb

/-- Integers that are compared as floats are compared as rounded integers are. -/
theorem compareFloats?_ofInt :
    Number.compareFloats? (Float.ofInt a) (Float.ofInt b) =
      some (compare (nearest a) (nearest b)) := by
  rw [compareFloats?_eq_compare (units?_ofInt ha) (units?_ofInt hb), ← cmp_eq_compare,
    ← cmp_eq_compare, cmp_mul_pos_right (Int.ofNat_lt.2 unitsInOne_pos)]

theorem beq_ofInt : (Float.ofInt a == Float.ofInt b) = true ↔ nearest a = nearest b := by
  rw [beq_iff_units (units?_ofInt ha) (units?_ofInt hb),
    mul_left_inj' (Int.natCast_ne_zero.2 unitsInOne_pos.ne')]

end

/-- No integer but zero is converted to zero. -/
theorem ofInt_beq_zero {n : Int} (h : n.natAbs < 2 ^ 64) : (Float.ofInt n == 0) = true ↔ n = 0 := by
  refine (beq_ofInt (b := 0) h (by decide)).trans ⟨fun hzero => ?_, fun hzero => ?_⟩
  · by_contra hn
    exact nearest_ne_zero hn hzero
  · rw [hzero]

end JsonTemplate.Decimal
