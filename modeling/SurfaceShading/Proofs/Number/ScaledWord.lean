/-
  How near the number is that a scaled word reads in double precision.

  The word is exact, the power of ten is rounded once and the quotient or the product once
  more. Main statement: the two errors stay within one part in `2 ^ 51`, and a
  number that double precision expresses is read without an error while the power of ten is
  exact (`toDouble?_near`).
-/
import SurfaceShading.Number.Binary32
import SurfaceShading.Number.ScaledWord
import SurfaceShading.Proofs.Number.Rounding

namespace SurfaceShading

namespace BinaryFormat

variable {f : BinaryFormat}

theorem div_eq (f : BinaryFormat) (a b : ℕ) : f.div a b = f.ofRatio (f.units a) (f.units b) := rfl

theorem mul_eq (f : BinaryFormat) (a b : ℕ) :
    f.mul a b = f.ofRatio (f.units a * f.units b) (2 ^ (2 * f.unitBits)) := by
  have product : (f.decode a).1 * (f.decode b).1 * 2 ^ ((f.decode a).2 + (f.decode b).2) =
      f.units a * f.units b := by
    unfold units
    ring
  rw [← product]
  rfl

theorem units_ratio (f : BinaryFormat) (a b : ℕ) :
    (f.units a / f.units b : ℚ) = f.magnitude a / f.magnitude b := by
  unfold magnitude
  rw [div_div_div_cancel_right₀ (by positivity)]

theorem units_product (f : BinaryFormat) (a b : ℕ) :
    ((f.units a * f.units b : ℕ) / (2 ^ (2 * f.unitBits) : ℕ) : ℚ) =
      f.magnitude a * f.magnitude b := by
  unfold magnitude
  push_cast
  rw [two_mul, pow_add, div_mul_div_comm]

theorem magnitude_zero (f : BinaryFormat) : f.magnitude 0 = 0 := by
  have units : f.units 0 = 0 := by
    have := @units_pattern f 0 0 ⟨by positivity, .inl rfl⟩
    rwa [zero_mul, zero_mul] at this
  rw [magnitude, units, Nat.cast_zero, zero_div]

theorem units_pos {p : ℕ} (pos : 0 < f.magnitude p) : 0 < f.units p := by
  refine Nat.pos_of_ne_zero fun none => ?_
  rw [magnitude, none, Nat.cast_zero, zero_div] at pos
  exact pos.false

/-! ## Double precision -/

theorem double_near {num den : ℕ} {x : ℚ} (pos : 0 < den) (is : (num / den : ℚ) = x)
    (least : 1 / 2 ^ 200 ≤ x) (most : x < 2 ^ 200) :
    |double.magnitude (double.ofRatio num den) - x| ≤ x / 2 ^ 53 ∧
      double.ofRatio num den < double.infinity := by
  have bits : (2 : ℚ) ^ double.unitBits = 2 ^ 200 * 2 ^ 874 := by
    rw [← pow_add]
    rfl
  refine @magnitude_ofRatio_near double num den pos x 1221 is ?_ ?_ (by decide +kernel)
  · calc (2 : ℚ) ^ double.fractionBits ≤ 2 ^ 874 := pow_le_pow_right₀ (by norm_num) (by decide)
      _ = 1 / 2 ^ 200 * 2 ^ double.unitBits := by rw [bits]; field_simp
      _ ≤ x * 2 ^ double.unitBits := mul_le_mul_of_nonneg_right least (by positivity)
  · calc x * 2 ^ double.unitBits < 2 ^ 200 * 2 ^ double.unitBits :=
          mul_lt_mul_of_pos_right most (by positivity)
      _ = 2 ^ (double.fractionBits + 1221 + 1) := by rw [← pow_add]; rfl

/-- Double precision expresses the multiples of a power of two by a word of 53 bits. -/
theorem double_expresses {n t : ℕ} {x : ℚ} (n_pos : 0 < n) (less : n < 2 ^ 53)
    (small : t ≤ 2000) (exact : x = n * 2 ^ t / 2 ^ double.unitBits) : double.Expresses x := by
  refine ⟨n, t, n_pos, less, ?_, exact⟩
  calc (t + 2) * 2 ^ double.fractionBits ≤ (2000 + 2) * 2 ^ double.fractionBits :=
        Nat.mul_le_mul_right _ (by omega)
    _ ≤ double.infinity := by decide +kernel

theorem double_expresses_nat {n : ℕ} (pos : 0 < n) (less : n < 2 ^ 53) : double.Expresses n :=
  double_expresses pos less (by decide : double.unitBits ≤ 2000)
    (mul_div_cancel_right₀ _ (by positivity)).symm

end BinaryFormat

open BinaryFormat (double)

theorem Binary32.narrow_eq (negative : Bool) (pattern : ℕ) :
    narrow negative pattern =
      ofMagnitude negative (BinaryFormat.single.ofRatio (double.units pattern)
        (2 ^ double.unitBits)) := by
  unfold narrow BinaryFormat.units
  simp only [Nat.pow_eq]

namespace ScaledWord

/-! ## One rounding after the other -/

theorem quotient_near {x y power exact : ℚ} (x_pos : 0 < x) (exact_pos : 0 < exact)
    (rounded : |power - exact| ≤ exact / 2 ^ 53) (near : |y - x / power| ≤ x / power / 2 ^ 53) :
    |y - x / exact| ≤ x / exact / 2 ^ 51 := by
  have half : exact / 2 ≤ power := by linarith [(abs_le.1 rounded).1]
  have power_pos : 0 < power := by linarith
  have moved : x / power - x / exact = x / power * ((exact - power) / exact) := by
    field_simp
  have share : |(exact - power) / exact| ≤ 1 / 2 ^ 53 := by
    rw [abs_div, abs_of_pos exact_pos, abs_sub_comm, div_le_iff₀ exact_pos]
    linarith
  have quotient_le : x / power ≤ 2 * (x / exact) := by
    rw [← mul_div_assoc, div_le_div_iff₀ power_pos exact_pos]
    nlinarith
  calc |y - x / exact| ≤ |y - x / power| + |x / power - x / exact| := abs_sub_le _ _ _
    _ ≤ x / power / 2 ^ 53 + x / power * (1 / 2 ^ 53) := by
        rw [moved, abs_mul, abs_of_pos (div_pos x_pos power_pos)]
        exact add_le_add near (mul_le_mul_of_nonneg_left share (div_pos x_pos power_pos).le)
    _ ≤ x / exact / 2 ^ 51 := by linarith

theorem product_near {x y power exact : ℚ} (x_pos : 0 < x) (exact_pos : 0 < exact)
    (rounded : |power - exact| ≤ exact / 2 ^ 53) (near : |y - x * power| ≤ x * power / 2 ^ 53) :
    |y - x * exact| ≤ x * exact / 2 ^ 51 := by
  have product_le : x * power ≤ x * (2 * exact) :=
    mul_le_mul_of_nonneg_left (by linarith [(abs_le.1 rounded).2]) x_pos.le
  have product_pos := mul_pos x_pos exact_pos
  calc |y - x * exact| ≤ |y - x * power| + |x * power - x * exact| := abs_sub_le _ _ _
    _ ≤ x * power / 2 ^ 53 + x * (exact / 2 ^ 53) := by
        rw [← mul_sub, abs_mul, abs_of_pos x_pos]
        exact add_le_add near (mul_le_mul_of_nonneg_left rounded x_pos.le)
    _ ≤ x * exact / 2 ^ 51 := by linarith

/-! ## Reading -/

theorem magnitude_word {w : ℕ} (pos : 0 < w) (less : w < 2 ^ 53) :
    double.magnitude (double.ofRatio w 1) = w :=
  BinaryFormat.magnitude_ofRatio_exact Nat.one_pos (BinaryFormat.double_expresses_nat pos less)
    (by rw [Nat.cast_one, div_one])

theorem powerOfTen_ratio (k : ℕ) : ((Nat.pow 10 k : ℕ) / (1 : ℕ) : ℚ) = 10 ^ k := by
  rw [Nat.pow_eq, Nat.cast_one, div_one, Nat.cast_pow, Nat.cast_ofNat]

/-- A power of ten up to the twenty-second is exact. -/
theorem magnitude_powerOfTen {k : ℕ} (le : k ≤ 22) :
    double.magnitude (powerOfTen k) = 10 ^ k := by
  have odd : 5 ^ k < 2 ^ 53 := lt_of_le_of_lt (Nat.pow_le_pow_right (by decide) le) (by decide)
  have small : k + double.unitBits ≤ 2000 :=
    (Nat.add_le_add_right le _).trans (by decide)
  refine BinaryFormat.magnitude_ofRatio_exact Nat.one_pos
    (BinaryFormat.double_expresses (by positivity) odd small ?_) (powerOfTen_ratio k)
  rw [pow_add, ← mul_assoc, mul_div_cancel_right₀ _ (by positivity)]
  push_cast
  rw [← mul_pow]
  norm_num

theorem magnitude_powerOfTen_near {k : ℕ} (le : k ≤ 54) :
    |double.magnitude (powerOfTen k) - 10 ^ k| ≤ 10 ^ k / 2 ^ 53 :=
  (BinaryFormat.double_near Nat.one_pos (powerOfTen_ratio k)
    (le_trans (by norm_num) (one_le_pow₀ (by norm_num)))
    (lt_of_le_of_lt (pow_le_pow_right₀ (by norm_num) le) (by norm_num))).1

/-- A rounded power of ten is more than half of it and less than its double. -/
theorem powerOfTen_bounds {k : ℕ} (le : k ≤ 54) :
    10 ^ k / 2 < double.magnitude (powerOfTen k) ∧
      double.magnitude (powerOfTen k) < 2 * 10 ^ k := by
  obtain ⟨low, high⟩ := abs_le.1 (magnitude_powerOfTen_near le)
  have power_pos : (0 : ℚ) < 10 ^ k := by positivity
  constructor <;> linarith

/-- The number that a word and a power of ten of moderate size are read as. -/
def reading (w : ℕ) (e : ℤ) : ℕ :=
  if e < 0 then double.div (double.ofRatio w 1) (powerOfTen e.natAbs)
  else double.mul (double.ofRatio w 1) (powerOfTen e.natAbs)

theorem reading_neg (w : ℕ) {k : ℕ} (pos : 0 < k) :
    reading w (-k) = double.div (double.ofRatio w 1) (powerOfTen k) := by
  rw [reading, if_pos (by omega), Int.natAbs_neg, Int.natAbs_natCast]

theorem reading_nonneg (w k : ℕ) :
    reading w k = double.mul (double.ofRatio w 1) (powerOfTen k) := by
  rw [reading, if_neg (by omega), Int.natAbs_natCast]

theorem toDouble?_neg {w k : ℕ} (pos : 0 < w) (less : w < 2 ^ 53) (k_pos : 0 < k)
    (le : k ≤ maxPower) : toDouble? ⟨w, -k⟩ = some (reading w (-k)) := by
  have nonzero : double.ofRatio w 1 ≠ 0 := by
    intro zero
    have word := magnitude_word pos less
    rw [zero, BinaryFormat.magnitude_zero] at word
    exact pos.ne (by exact_mod_cast word)
  rw [reading_neg w k_pos]
  unfold toDouble?
  dsimp only
  rw [if_pos (by omega), Int.natAbs_neg, Int.natAbs_natCast, scaleDown, if_neg nonzero,
    if_pos le]

theorem toDouble?_nonneg {w k : ℕ} (pos : 0 < w) (le : k ≤ maxPower)
    (finite : reading w k < double.infinity) : toDouble? ⟨w, k⟩ = some (reading w k) := by
  rw [reading_nonneg] at finite ⊢
  unfold toDouble?
  dsimp only
  rw [if_neg (by omega), if_neg pos.ne', Int.toNat_natCast, if_pos le, if_neg finite.ne]

theorem exists_neg {e : ℤ} (neg : e < 0) : ∃ k : ℕ, 0 < k ∧ e = -k :=
  ⟨e.natAbs, Int.natAbs_pos.2 neg.ne, by omega⟩

/-- A word and a power of ten of moderate size are read, as a number that differs from what is
written by at most one part in `2 ^ 51`, and not at all where double precision expresses it and
the power of ten. -/
theorem toDouble?_near {w : ℕ} {e : ℤ} (pos : 0 < w) (less : w < 2 ^ 53) (low : -54 ≤ e)
    (high : e ≤ 40) : toDouble? ⟨w, e⟩ = some (reading w e) ∧
      |double.magnitude (reading w e) - w * 10 ^ e| ≤ w * 10 ^ e / 2 ^ 51 ∧
      (-22 ≤ e → e ≤ 22 → double.Expresses (w * 10 ^ e) →
        double.magnitude (reading w e) = w * 10 ^ e) := by
  have word := magnitude_word pos less
  have w_pos : (0 : ℚ) < w := by exact_mod_cast pos
  have one_le : (1 : ℚ) ≤ w := by exact_mod_cast pos
  have w_lt : (w : ℚ) < 2 ^ 53 := by exact_mod_cast less
  rcases lt_or_ge e 0 with neg | nonneg
  · obtain ⟨k, k_pos, rfl⟩ := exists_neg neg
    have k_le : k ≤ 54 := by omega
    obtain ⟨half, twice⟩ := powerOfTen_bounds k_le
    have power_pos : (1 : ℚ) ≤ 10 ^ k := one_le_pow₀ (by norm_num)
    have power_le : (10 : ℚ) ^ k ≤ 10 ^ 54 := pow_le_pow_right₀ (by norm_num) k_le
    have rounded_pos : 0 < double.magnitude (powerOfTen k) := by linarith
    have ratio := BinaryFormat.units_ratio double (double.ofRatio w 1) (powerOfTen k)
    rw [word] at ratio
    have least : 1 / 2 ^ 200 ≤ w / double.magnitude (powerOfTen k) := by
      rw [le_div_iff₀ rounded_pos]
      have : (10 : ℚ) ^ 54 ≤ 2 ^ 190 := by norm_num
      linarith
    have most : w / double.magnitude (powerOfTen k) < 2 ^ 200 := by
      rw [div_lt_iff₀ rounded_pos]
      linarith
    have units_pos := BinaryFormat.units_pos rounded_pos
    have near := (BinaryFormat.double_near units_pos ratio least most).1
    rw [← BinaryFormat.div_eq] at near
    refine ⟨toDouble?_neg pos less k_pos (k_le.trans (by decide)), ?_, fun low _ expressed => ?_⟩
    · rw [reading_neg w k_pos, zpow_neg, zpow_natCast, ← div_eq_mul_inv]
      exact quotient_near w_pos (by positivity) (magnitude_powerOfTen_near k_le) near
    · rw [magnitude_powerOfTen (by omega)] at ratio
      rw [zpow_neg, zpow_natCast, ← div_eq_mul_inv] at expressed ⊢
      rw [reading_neg w k_pos, BinaryFormat.div_eq]
      exact BinaryFormat.magnitude_ofRatio_exact units_pos expressed ratio
  · obtain ⟨k, rfl⟩ := Int.eq_ofNat_of_zero_le nonneg
    have k_le : k ≤ 40 := by omega
    obtain ⟨half, twice⟩ := powerOfTen_bounds (k_le.trans (by decide) : k ≤ 54)
    have power_pos : (1 : ℚ) ≤ 10 ^ k := one_le_pow₀ (by norm_num)
    have power_le : (10 : ℚ) ^ k ≤ 10 ^ 40 := pow_le_pow_right₀ (by norm_num) k_le
    have product := BinaryFormat.units_product double (double.ofRatio w 1) (powerOfTen k)
    rw [word] at product
    have least : 1 / 2 ^ 200 ≤ w * double.magnitude (powerOfTen k) := by nlinarith
    have most : w * double.magnitude (powerOfTen k) < 2 ^ 200 :=
      calc (w : ℚ) * double.magnitude (powerOfTen k) ≤ 2 ^ 53 * (2 * 10 ^ 40) :=
            mul_le_mul w_lt.le (by linarith) (by linarith) (by norm_num)
        _ < 2 ^ 200 := by norm_num
    obtain ⟨near, finite⟩ := BinaryFormat.double_near (Nat.two_pow_pos _) product least most
    rw [← BinaryFormat.mul_eq, ← reading_nonneg] at near finite
    refine ⟨toDouble?_nonneg pos (k_le.trans (by decide)) finite, ?_, fun _ high expressed => ?_⟩
    · rw [zpow_natCast]
      exact product_near w_pos (by positivity)
        (magnitude_powerOfTen_near (k_le.trans (by decide))) near
    · rw [magnitude_powerOfTen (by omega)] at product
      rw [zpow_natCast] at expressed ⊢
      rw [reading_nonneg, BinaryFormat.mul_eq]
      exact BinaryFormat.magnitude_ofRatio_exact (Nat.two_pow_pos _) expressed product

end ScaledWord

end SurfaceShading
