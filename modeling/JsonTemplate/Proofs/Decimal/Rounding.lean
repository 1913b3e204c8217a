import JsonTemplate.Decimal.Binary
import Mathlib.Algebra.Order.Ring.Int

/-! Rounding integers to the significant bits of a float. An integer of more than 53 bits goes to
the nearest multiple of the least power of two that leaves 53 bits, and to the even one of two
multiples that are equally near. Rounding keeps the order of integers, but not that they differ. -/

namespace JsonTemplate.Decimal

/-- The multiple of a unit that is nearest to a number, counted in units. Halfway between two, it is
the even one. -/
def roundedQuotient (n unit : Nat) : Nat :=
  if 2 * (n % unit) < unit ∨ 2 * (n % unit) = unit ∧ n / unit % 2 = 0 then n / unit
  else n / unit + 1

/-- The last of the 53 bits that a float keeps of a number. -/
def lastBit (n : Nat) : Nat := 2 ^ (n.log2 - 52)

/-- The number that the float nearest to a number stands for. -/
def nearestNat (n : Nat) : Nat := roundedQuotient n (lastBit n) * lastBit n

/-- The integer that the float nearest to an integer stands for. -/
def nearest (n : Int) : Int := signed (n < 0) (nearestNat n.natAbs)

/-! ### Quotients -/

section
variable {n m unit : Nat}

theorem div_le_roundedQuotient (n unit : Nat) : n / unit ≤ roundedQuotient n unit := by
  unfold roundedQuotient
  split <;> omega

theorem roundedQuotient_le (n unit : Nat) : roundedQuotient n unit ≤ n / unit + 1 := by
  unfold roundedQuotient
  split <;> omega

theorem roundedQuotient_mono (h : n ≤ m) : roundedQuotient n unit ≤ roundedQuotient m unit := by
  rcases Nat.lt_or_eq_of_le (Nat.div_le_div_right (c := unit) h) with hlt | heq
  · exact (roundedQuotient_le n unit).trans (Nat.le_trans hlt (div_le_roundedQuotient m unit))
  · -- of two numbers with the same quotient, the greater one has the greater remainder
    have hn := Nat.div_add_mod n unit
    have hm := Nat.div_add_mod m unit
    have hmod : n % unit ≤ m % unit := by
      rw [heq] at hn
      omega
    unfold roundedQuotient
    rw [heq]
    split <;> split <;> omega

theorem roundedQuotient_mul (n unit : Nat) {k : Nat} (hk : 0 < k) :
    roundedQuotient (n * k) (unit * k) = roundedQuotient n unit := by
  unfold roundedQuotient
  rw [Nat.mul_div_mul_right n unit hk, Nat.mul_mod_mul_right]
  have hlt : 2 * (n % unit * k) < unit * k ↔ 2 * (n % unit) < unit := by
    rw [← Nat.mul_assoc, Nat.mul_lt_mul_right hk]
  have heq : 2 * (n % unit * k) = unit * k ↔ 2 * (n % unit) = unit := by
    rw [← Nat.mul_assoc, Nat.mul_left_inj hk.ne']
  simp only [hlt, heq]

/-- A multiple of the unit is kept. -/
theorem roundedQuotient_mul_self (h : unit ∣ n) (hunit : 0 < unit) :
    roundedQuotient n unit * unit = n := by
  have hmod : n % unit = 0 := Nat.mod_eq_zero_of_dvd h
  rw [roundedQuotient, if_pos (.inl (by omega)), Nat.div_mul_cancel h]

end

/-! ### Numbers -/

section
variable {n m k : Nat}

theorem lastBit_pos (n : Nat) : 0 < lastBit n := Nat.two_pow_pos _

theorem nearestNat_of_dvd (h : lastBit n ∣ n) : nearestNat n = n :=
  roundedQuotient_mul_self h (lastBit_pos n)

/-- A number of 53 bits or less is kept. -/
theorem nearestNat_of_lt (h : n < 2 ^ 53) : nearestNat n = n := by
  have hlog : n.log2 - 52 = 0 := by
    rcases Nat.eq_zero_or_pos n with rfl | hpos
    · rfl
    · have := (Nat.log2_lt hpos.ne').2 h
      omega
  apply nearestNat_of_dvd
  rw [lastBit, hlog]
  exact Nat.one_dvd n

/-- A power of two is a multiple of the last bit of every number that is not below it. -/
theorem lastBit_dvd_two_pow (h : n.log2 ≤ k + 52) : lastBit n ∣ 2 ^ k :=
  Nat.pow_dvd_pow 2 (by omega)

/-- A power of two that bounds a number bounds the rounded number as well. -/
theorem two_pow_le_nearestNat (h : 2 ^ k ≤ n) : 2 ^ k ≤ nearestNat n := by
  have hpos : n ≠ 0 := by have := Nat.two_pow_pos k; omega
  have hdvd : lastBit n ∣ 2 ^ n.log2 := lastBit_dvd_two_pow (by omega)
  calc
    2 ^ k ≤ 2 ^ n.log2 := Nat.pow_le_pow_right (by decide) ((Nat.le_log2 hpos).2 h)
    _ = roundedQuotient (2 ^ n.log2) (lastBit n) * lastBit n :=
      (roundedQuotient_mul_self hdvd (lastBit_pos n)).symm
    _ ≤ nearestNat n := Nat.mul_le_mul_right _ (roundedQuotient_mono (Nat.log2_self_le hpos))

theorem nearestNat_le_two_pow (h : n ≤ 2 ^ k) : nearestNat n ≤ 2 ^ k := by
  rcases Nat.eq_zero_or_pos n with rfl | hpos
  · exact Nat.zero_le _
  have hlog : n.log2 ≤ k :=
    (Nat.pow_le_pow_iff_right (by decide)).1 ((Nat.log2_self_le hpos.ne').trans h)
  have hdvd : lastBit n ∣ 2 ^ k := lastBit_dvd_two_pow (by omega)
  calc
    nearestNat n ≤ roundedQuotient (2 ^ k) (lastBit n) * lastBit n :=
      Nat.mul_le_mul_right _ (roundedQuotient_mono h)
    _ = 2 ^ k := roundedQuotient_mul_self hdvd (lastBit_pos n)

/-- A number of more than 53 bits keeps the first 53 of them, or goes to the next power of two. -/
theorem nearestNat_eq_mul (hn : n ≠ 0) (hk : n.log2 = 52 + k) :
    nearestNat n = roundedQuotient n (2 ^ k) * 2 ^ k ∧
      2 ^ 52 ≤ roundedQuotient n (2 ^ k) ∧ roundedQuotient n (2 ^ k) ≤ 2 ^ 53 := by
  have hnearest : nearestNat n = roundedQuotient n (2 ^ k) * 2 ^ k := by
    rw [nearestNat, lastBit, hk, Nat.add_sub_cancel_left]
  have hlow : 2 ^ 52 * 2 ^ k ≤ nearestNat n := by
    rw [← Nat.pow_add]
    exact two_pow_le_nearestNat ((Nat.le_log2 hn).1 hk.ge)
  have hhigh : nearestNat n ≤ 2 ^ 53 * 2 ^ k := by
    rw [← Nat.pow_add]
    exact nearestNat_le_two_pow ((Nat.log2_lt hn).1 (by omega)).le
  rw [hnearest] at hlow hhigh
  exact ⟨hnearest, Nat.le_of_mul_le_mul_right hlow (Nat.two_pow_pos k),
    Nat.le_of_mul_le_mul_right hhigh (Nat.two_pow_pos k)⟩

theorem nearestNat_mono (h : n ≤ m) : nearestNat n ≤ nearestNat m := by
  rcases Nat.eq_zero_or_pos n with rfl | hpos
  · exact Nat.zero_le _
  have hm : m ≠ 0 := by omega
  have hlog : n.log2 ≤ m.log2 := (Nat.le_log2 hm).2 ((Nat.log2_self_le hpos.ne').trans h)
  rcases Nat.lt_or_eq_of_le hlog with hlt | heq
  · -- a power of two lies between the two
    calc
      nearestNat n ≤ 2 ^ (n.log2 + 1) := nearestNat_le_two_pow (Nat.lt_log2_self).le
      _ ≤ 2 ^ m.log2 := Nat.pow_le_pow_right (by decide) hlt
      _ ≤ nearestNat m := two_pow_le_nearestNat (Nat.log2_self_le hm)
  · unfold nearestNat lastBit
    rw [heq]
    exact Nat.mul_le_mul_right _ (roundedQuotient_mono h)

theorem log2_mul_two_pow (hn : n ≠ 0) (k : Nat) : (n * 2 ^ k).log2 = n.log2 + k := by
  have hpos := Nat.two_pow_pos k
  rw [Nat.log2_eq_iff (Nat.mul_ne_zero hn hpos.ne'), Nat.pow_add,
    show n.log2 + k + 1 = n.log2 + 1 + k by omega, Nat.pow_add 2 (n.log2 + 1)]
  exact ⟨Nat.mul_le_mul_right _ (Nat.log2_self_le hn),
    Nat.mul_lt_mul_of_pos_right Nat.lt_log2_self hpos⟩

/-- Scaling by a power of two commutes with rounding. -/
theorem nearestNat_mul_two_pow (n k : Nat) : nearestNat (n * 2 ^ k) = nearestNat n * 2 ^ k := by
  rcases Nat.eq_zero_or_pos n with rfl | hpos
  · rw [Nat.zero_mul]
    exact (Nat.zero_mul _).symm
  have hlog := log2_mul_two_pow hpos.ne' k
  rcases Nat.lt_or_ge n (2 ^ 52) with hsmall | hlarge
  · have hbits : n.log2 < 52 := (Nat.log2_lt hpos.ne').2 hsmall
    rw [nearestNat_of_lt (n := n) (by omega)]
    apply nearestNat_of_dvd
    exact (lastBit_dvd_two_pow (by omega)).mul_left n
  · have hbits : 52 ≤ n.log2 := (Nat.le_log2 hpos.ne').2 hlarge
    have hlast : lastBit (n * 2 ^ k) = lastBit n * 2 ^ k := by
      rw [lastBit, lastBit, hlog, ← Nat.pow_add]
      congr 1
      omega
    rw [nearestNat, nearestNat, hlast, roundedQuotient_mul _ _ (Nat.two_pow_pos k), Nat.mul_assoc]

end

/-! ### Integers -/

@[simp] theorem nearest_natCast (n : Nat) : nearest n = nearestNat n := by
  simp [nearest, signed]

theorem nearest_neg (n : Int) : nearest (-n) = -nearest n := by
  unfold nearest signed
  rw [Int.natAbs_neg]
  rcases Int.lt_trichotomy n 0 with hneg | rfl | hpos
  · simp [hneg]
    omega
  · rfl
  · simp [hpos]
    omega

theorem nearest_mono {a b : Int} (h : a ≤ b) : nearest a ≤ nearest b := by
  obtain ⟨m, rfl | rfl⟩ := a.eq_nat_or_neg
  all_goals obtain ⟨n, rfl | rfl⟩ := b.eq_nat_or_neg
  · simpa using nearestNat_mono (show m ≤ n by omega)
  · obtain ⟨rfl, rfl⟩ : m = 0 ∧ n = 0 := by omega
    rfl
  · rw [nearest_neg, nearest_natCast, nearest_natCast]
    omega
  · rw [nearest_neg, nearest_neg, nearest_natCast, nearest_natCast]
    have := nearestNat_mono (show n ≤ m by omega)
    omega

example : nearest 9007199254740993 = nearest 9007199254740992 := by decide +kernel

theorem nearest_ne_zero {n : Int} (h : n ≠ 0) : nearest n ≠ 0 := by
  obtain ⟨m, hm⟩ := n.eq_nat_or_neg
  have hpos : 2 ^ 0 ≤ nearestNat m := two_pow_le_nearestNat (by omega)
  rcases hm with rfl | rfl
  · rw [nearest_natCast]
    omega
  · rw [nearest_neg, nearest_natCast]
    omega

end JsonTemplate.Decimal
