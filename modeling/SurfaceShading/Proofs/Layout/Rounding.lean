/-
  Offsets of the layout in exact arithmetic. `roundUp` and `exactFit` are `alignUp` and
  `Layout.fit` without the wrap of 32-bit words; `toNat_alignUp` and `toNat_fit` say that the
  words compute them whenever the results are words. `roundUp_isLeast` and `exactFit_isLeast`
  say what they are: the least multiple that is not below a value, and the least place for a
  value within one register.
-/
import SurfaceShading.Shader.Layout
import Mathlib.Algebra.Group.Nat.Defs
import Mathlib.Order.Bounds.Defs

namespace SurfaceShading

/-- The least multiple of `alignment` that is not below `value`. -/
def roundUp (value alignment : Nat) : Nat := (value + alignment - 1) / alignment * alignment

theorem roundUp_isLeast (value : Nat) {alignment : Nat} (positive : 0 < alignment) :
    IsLeast {n | alignment ∣ n ∧ value ≤ n} (roundUp value alignment) := by
  refine ⟨⟨Nat.dvd_mul_left _ _, ?_⟩, ?_⟩
  · have split := Nat.div_add_mod (value + alignment - 1) alignment
    have rest := Nat.mod_lt (value + alignment - 1) positive
    rw [roundUp, Nat.mul_comm]
    omega
  · rintro _ ⟨⟨q, rfl⟩, le⟩
    rw [roundUp, Nat.mul_comm alignment]
    refine Nat.mul_le_mul_right _ (Nat.le_of_lt_succ ((Nat.div_lt_iff_lt_mul positive).2 ?_))
    rw [Nat.succ_mul, Nat.mul_comm q]
    omega

/-- Clearing the low bits of a number leaves the multiple of the power of two below it. -/
theorem and_sub_two_pow {x k n : Nat} (lt : x < 2 ^ n) (le : k ≤ n) :
    x &&& (2 ^ n - 2 ^ k) = x / 2 ^ k * 2 ^ k := by
  have positive : 0 < 2 ^ k := Nat.two_pow_pos k
  have low : 2 ^ k - 1 < 2 ^ n :=
    Nat.lt_of_lt_of_le (Nat.sub_lt positive Nat.one_pos) (Nat.pow_le_pow_right (by decide) le)
  have mask : 2 ^ n - 2 ^ k = 2 ^ n - (2 ^ k - 1 + 1) := by omega
  refine Nat.eq_of_testBit_eq fun i => ?_
  rw [mask, Nat.testBit_and, Nat.testBit_two_pow_sub_succ low, Nat.testBit_two_pow_sub_one,
    Nat.testBit_mul_two_pow, Nat.testBit_div_two_pow]
  by_cases above : k ≤ i
  · rw [Nat.sub_add_cancel above]
    by_cases inside : i < n
    · simp [above, inside]
    · have zero : x.testBit i = false := Nat.testBit_lt_two_pow
        (Nat.lt_of_lt_of_le lt (Nat.pow_le_pow_right (by decide) (by omega)))
      simp [zero]
  · have below : i < k := by omega
    simp [above, below]

theorem toNat_alignUp {value alignment : UInt32} {k : Nat} (power : alignment.toNat = 2 ^ k)
    (fits : value.toNat + alignment.toNat ≤ UInt32.size) :
    (alignUp value alignment).toNat = roundUp value.toNat alignment.toNat := by
  have positive : 0 < alignment.toNat := power ▸ Nat.two_pow_pos k
  have word := alignment.toNat_lt
  rw [UInt32.size] at fits
  have le : k ≤ 32 := (Nat.pow_le_pow_iff_right (by decide : 1 < 2)).1 (by omega)
  -- The sum before the subtraction may be the one number behind the words, and then wraps twice.
  have sum : (value + alignment - 1).toNat = value.toNat + alignment.toNat - 1 := by
    rw [UInt32.toNat_sub, UInt32.toNat_add, UInt32.toNat_one]
    omega
  have mask : (~~~(alignment - 1)).toNat = 2 ^ 32 - 2 ^ k := by
    rw [UInt32.toNat_not, UInt32.toNat_sub, UInt32.toNat_one, ← power, UInt32.size]
    omega
  rw [alignUp, UInt32.toNat_and, sum, mask, and_sub_two_pow (by omega) le, roundUp, power]

namespace Layout

/-- The places for a value of some size behind an offset: multiples of four from which the
value stays within one register. -/
def places (start size : Nat) : Set Nat := {o | 4 ∣ o ∧ start ≤ o ∧ o + size ≤ 16 * (o / 16 + 1)}

/-- The first such place. -/
def exactFit (start size : Nat) : Nat := if start % 16 + size > 16 then roundUp start 16 else start

theorem exactFit_isLeast {start size : Nat} (aligned : 4 ∣ start) (positive : 0 < size)
    (le : size ≤ 16) : IsLeast (places start size) (exactFit start size) := by
  unfold exactFit roundUp places
  split
  · refine ⟨⟨by omega, by omega, by omega⟩, ?_⟩
    -- Up to the next register every place is in the register of the start, nearer its end.
    rintro o ⟨_, from_start, within⟩
    omega
  · exact ⟨⟨aligned, Nat.le_refl _, by omega⟩, fun o is => is.2.1⟩

theorem toNat_fit {offset size : UInt32} (le : size.toNat ≤ 16)
    (fits : exactFit offset.toNat size.toNat < UInt32.size) :
    (fit offset size).toNat = exactFit offset.toNat size.toNat := by
  have straddles : offset % registerSize + size > registerSize ↔
      offset.toNat % 16 + size.toNat > 16 := by
    rw [gt_iff_lt, UInt32.lt_iff_toNat_lt, UInt32.toNat_add, UInt32.toNat_mod]
    simp only [registerSize, UInt32.reduceToNat]
    omega
  unfold fit
  by_cases crosses : offset.toNat % 16 + size.toNat > 16
  · rw [exactFit, if_pos crosses, UInt32.size, roundUp] at fits
    rw [if_pos (straddles.2 crosses), exactFit, if_pos crosses]
    refine toNat_alignUp (k := 4) rfl ?_
    simp only [registerSize, UInt32.reduceToNat, UInt32.size]
    omega
  · rw [if_neg (mt straddles.1 crosses), exactFit, if_neg crosses]

end Layout

end SurfaceShading
