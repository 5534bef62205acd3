/-
  Rounding to a binary format, in terms of the rational numbers that patterns stand for.

  A pattern `s * 2 ^ fractionBits + m` stands for `m` times `2 ^ s` units. Main statements: the
  pattern of a ratio is the one in whose rounding interval the ratio lies (`ofRatio_eq`), it
  stands for the ratio itself where the mantissa suffices (`ofRatio_exact`), and for a number
  that is relatively near elsewhere in the normal range (`ofRatio_near`).
-/
import Mathlib
import SurfaceShading.Number.Rounding

namespace SurfaceShading

/-! ## The nearest whole number -/

/-- The fraction that is left of a quotient decides how it is rounded. -/
theorem exists_fraction (num : ℕ) {den : ℕ} (pos : 0 < den) :
    ∃ rest : ℚ, (num : ℚ) / den = (num / den : ℕ) + rest ∧ 0 ≤ rest ∧ rest < 1 ∧
      (rest < 1 / 2 → divRoundEven num den = num / den) ∧
      (1 / 2 < rest → divRoundEven num den = num / den + 1) ∧
      (rest = 1 / 2 → divRoundEven num den = num / den + num / den % 2) := by
  have den_pos : (0 : ℚ) < den := by exact_mod_cast pos
  have whole : (num : ℚ) = den * (num / den : ℕ) + (num % den : ℕ) := by
    exact_mod_cast (Nat.div_add_mod num den).symm
  have below : ((num % den : ℕ) : ℚ) < den := by exact_mod_cast Nat.mod_lt num pos
  refine ⟨(num % den : ℕ) / den, ?_, by positivity, (div_lt_one den_pos).2 below, ?_, ?_, ?_⟩
  · rw [eq_comm, ← sub_eq_iff_eq_add'.2 whole]
    field_simp
    ring
  · intro less
    have twice : 2 * (num % den) < den := by
      rw [div_lt_div_iff₀ den_pos (by norm_num)] at less
      exact_mod_cast (by linarith : (2 : ℚ) * (num % den : ℕ) < den)
    rw [divRoundEven, if_pos twice]
  · intro more
    have twice : den < 2 * (num % den) := by
      rw [div_lt_div_iff₀ (by norm_num) den_pos] at more
      exact_mod_cast (by linarith : (den : ℚ) < 2 * (num % den : ℕ))
    rw [divRoundEven, if_neg twice.not_gt, if_pos twice]
  · intro half
    have twice : 2 * (num % den) = den := by
      rw [div_eq_div_iff den_pos.ne' (by norm_num)] at half
      exact_mod_cast (by linarith : (2 : ℚ) * (num % den : ℕ) = den)
    rw [divRoundEven, if_neg twice.not_lt, if_neg twice.symm.not_lt]

theorem divRoundEven_near (num : ℕ) {den : ℕ} (pos : 0 < den) :
    |(divRoundEven num den : ℚ) - num / den| ≤ 1 / 2 := by
  obtain ⟨rest, split, least, less, down, up, tie⟩ := exists_fraction num pos
  rw [split, abs_le]
  rcases lt_trichotomy rest (1 / 2) with small | half | large
  · rw [down small]
    constructor <;> linarith
  · rw [tie half]
    have parity : (((num / den % 2 : ℕ)) : ℚ) ≤ 1 := by
      exact_mod_cast Nat.lt_succ_iff.1 (Nat.mod_lt _ Nat.two_pos)
    have nonneg : (0 : ℚ) ≤ ((num / den % 2 : ℕ) : ℚ) := by positivity
    push_cast
    constructor <;> linarith
  · rw [up large]
    push_cast
    constructor <;> linarith

/-- What is nearest, and even if another number is as near, is what a quotient rounds to. -/
theorem divRoundEven_eq {num den m : ℕ} (pos : 0 < den) (near : |(num : ℚ) / den - m| ≤ 1 / 2)
    (tie : |(num : ℚ) / den - m| = 1 / 2 → m % 2 = 0) : divRoundEven num den = m := by
  obtain ⟨rest, split, least, less, down, up, even⟩ := exists_fraction num pos
  rw [split] at near tie
  obtain ⟨above, below⟩ := abs_le.1 near
  rcases lt_trichotomy rest (1 / 2) with small | half | large
  · have lower : m < num / den + 1 := by
      exact_mod_cast (by linarith : (m : ℚ) < (num / den : ℕ) + 1)
    have upper : num / den < m + 1 := by
      exact_mod_cast (by linarith : ((num / den : ℕ) : ℚ) < m + 1)
    rw [down small]
    omega
  · have lower : m ≤ num / den + 1 := by
      exact_mod_cast (by linarith : (m : ℚ) ≤ (num / den : ℕ) + 1)
    have upper : num / den ≤ m := by
      exact_mod_cast (by linarith : ((num / den : ℕ) : ℚ) ≤ m)
    have parity : m % 2 = 0 := by
      refine tie ?_
      rcases (by omega : m = num / den ∨ m = num / den + 1) with same | next
      · rw [← same, half, add_sub_cancel_left]
        norm_num
      · rw [next, half]
        push_cast
        rw [show ((num / den : ℕ) : ℚ) + 1 / 2 - ((num / den : ℕ) + 1) = -(1 / 2) by ring]
        norm_num
    rw [even half]
    omega
  · have lower : m < num / den + 2 := by
      exact_mod_cast (by linarith : (m : ℚ) < (num / den : ℕ) + 2)
    have upper : num / den < m := by
      exact_mod_cast (by linarith : ((num / den : ℕ) : ℚ) < m)
    rw [up large]
    omega

namespace BinaryFormat

variable (f : BinaryFormat)

/-! ## Patterns and the numbers they stand for -/

/-- The number of least units of a finite pattern. -/
def units (pattern : ℕ) : ℕ := (f.decode pattern).1 * 2 ^ (f.decode pattern).2

/-- The number that a finite pattern stands for. -/
def magnitude (pattern : ℕ) : ℚ := f.units pattern / 2 ^ f.unitBits

/-- A mantissa and a scale as patterns have them: only the least scale has mantissas without
the leading bit. -/
structure Normal (m s : ℕ) : Prop where
  lt : m < 2 ^ (f.fractionBits + 1)
  leading : s = 0 ∨ 2 ^ f.fractionBits ≤ m

/-- A positive number that is a mantissa of the format at a scale. -/
def Expresses (x : ℚ) : Prop :=
  ∃ n t : ℕ, 0 < n ∧ n < 2 ^ (f.fractionBits + 1) ∧ (t + 2) * 2 ^ f.fractionBits ≤ f.infinity ∧
    x = n * 2 ^ t / 2 ^ f.unitBits

variable {f} {m s : ℕ}

theorem decode_pattern (normal : f.Normal m s) :
    f.decode (s * 2 ^ f.fractionBits + m) = (m, s) := by
  have pos : 0 < 2 ^ f.fractionBits := by positivity
  have less := normal.lt
  rw [pow_succ] at less
  unfold decode
  simp only [Nat.pow_eq]
  by_cases small : m < 2 ^ f.fractionBits
  · obtain rfl := normal.leading.resolve_right small.not_ge
    rw [zero_mul, zero_add, Nat.div_eq_of_lt small, Nat.mod_eq_of_lt small, if_pos rfl]
  · obtain ⟨rest, rfl⟩ := Nat.exists_eq_add_of_le (not_lt.1 small)
    have rest_lt : rest < 2 ^ f.fractionBits := by omega
    have cut : s * 2 ^ f.fractionBits + (2 ^ f.fractionBits + rest) =
        rest + 2 ^ f.fractionBits * (s + 1) := by ring
    rw [cut, Nat.add_mul_div_left _ _ pos, Nat.add_mul_mod_self_left, Nat.div_eq_of_lt rest_lt,
      Nat.mod_eq_of_lt rest_lt, if_neg (by omega), zero_add, Nat.add_sub_cancel, add_comm rest]

theorem decode_normal (p : ℕ) : f.Normal (f.decode p).1 (f.decode p).2 ∧
    (f.decode p).2 * 2 ^ f.fractionBits + (f.decode p).1 = p := by
  have pos : 0 < 2 ^ f.fractionBits := by positivity
  have less := Nat.mod_lt p pos
  have whole := Nat.div_add_mod' p (2 ^ f.fractionBits)
  unfold decode
  simp only [Nat.pow_eq]
  split
  · next none =>
    rw [none, zero_mul, zero_add] at whole
    exact ⟨⟨less.trans (Nat.pow_lt_pow_right (by decide) (Nat.lt_succ_self _)), .inl rfl⟩,
      by rw [zero_mul, zero_add, whole]⟩
  · next some =>
    obtain ⟨e, exponent⟩ := Nat.exists_eq_succ_of_ne_zero some
    rw [exponent, Nat.succ_mul] at whole
    refine ⟨⟨by rw [pow_succ]; omega, .inr (Nat.le_add_left _ _)⟩, ?_⟩
    rw [exponent, Nat.succ_sub_one]
    dsimp only
    omega

theorem units_pattern (normal : f.Normal m s) :
    f.units (s * 2 ^ f.fractionBits + m) = m * 2 ^ s := by
  rw [units, decode_pattern normal]

/-- A mantissa that was rounded up to the next power of two carries into the exponent. -/
theorem units_carry (f : BinaryFormat) (s : ℕ) :
    f.units (s * 2 ^ f.fractionBits + 2 ^ (f.fractionBits + 1)) =
      2 ^ (f.fractionBits + 1) * 2 ^ s := by
  have normal : f.Normal (2 ^ f.fractionBits) (s + 1) :=
    ⟨Nat.pow_lt_pow_right (by decide) (Nat.lt_succ_self _), .inr le_rfl⟩
  have carried : s * 2 ^ f.fractionBits + 2 ^ (f.fractionBits + 1) =
      (s + 1) * 2 ^ f.fractionBits + 2 ^ f.fractionBits := by ring
  rw [carried, units_pattern normal]
  ring

/-- A mantissa with its leading bit, or one that was rounded up beyond it, at its scale. -/
theorem units_of_leading (leads : 2 ^ f.fractionBits ≤ m) (most : m ≤ 2 ^ (f.fractionBits + 1)) :
    f.units (s * 2 ^ f.fractionBits + m) = m * 2 ^ s := by
  rcases most.lt_or_eq with less | rfl
  · exact units_pattern ⟨less, .inr leads⟩
  · exact units_carry f s

/-- Every positive mantissa that suffices has a normal form. -/
theorem exists_normal {n : ℕ} (pos : 0 < n) (less : n < 2 ^ (f.fractionBits + 1)) (t : ℕ) :
    ∃ m s, f.Normal m s ∧ m * 2 ^ s = n * 2 ^ t ∧ s ≤ t := by
  induction t generalizing n with
  | zero => exact ⟨n, 0, ⟨less, .inl rfl⟩, rfl, le_rfl⟩
  | succ t ih =>
    by_cases leads : 2 ^ f.fractionBits ≤ n
    · exact ⟨n, t + 1, ⟨less, .inr leads⟩, rfl, le_rfl⟩
    · obtain ⟨m, s, normal, same, le⟩ :=
        @ih (n * 2) (by omega) (by rw [pow_succ]; omega)
      exact ⟨m, s, normal, by rw [same, pow_succ]; ring, le.trans (Nat.le_succ t)⟩

/-! ## Ratios -/

section

variable {num den : ℕ}

/-- The pattern of a ratio whose whole units have a given number of bits. -/
theorem ofRatio_of_log2 {shift : ℕ}
    (bits : (num * 2 ^ f.unitBits / den).log2 - f.fractionBits = shift) :
    f.ofRatio num den = min (shift * 2 ^ f.fractionBits +
      divRoundEven (num * 2 ^ f.unitBits) (den * 2 ^ shift)) f.infinity := by
  unfold ofRatio
  simp only [Nat.pow_eq, bits]

/-- A number of whole units has the scale at which it has as many bits as a mantissa. -/
theorem log2_sub_eq {floor bits s : ℕ} (leads : s = 0 ∨ 2 ^ (bits + s) ≤ floor)
    (less : floor < 2 ^ (bits + s + 1)) : floor.log2 - bits = s := by
  by_cases zero : floor = 0
  · rcases leads with rfl | leads
    · rw [zero, Nat.log2_zero, Nat.zero_sub]
    · exact absurd (zero ▸ leads) (not_le.2 (by positivity))
  · have upper := (Nat.log2_lt zero).2 less
    rcases leads with rfl | leads
    · omega
    · have lower := (Nat.le_log2 zero).2 leads
      omega

theorem scaled_units (f : BinaryFormat) (num den s : ℕ) :
    ((num * 2 ^ f.unitBits : ℕ) : ℚ) / (den * 2 ^ s : ℕ) =
      num / den * 2 ^ f.unitBits / 2 ^ s := by
  push_cast
  rw [← div_div, div_mul_eq_mul_div]

variable (pos : 0 < den)
include pos

/-- A ratio in units, between the whole units that are used to find its scale. -/
theorem floor_units (f : BinaryFormat) (num : ℕ) :
    ((num * 2 ^ f.unitBits / den : ℕ) : ℚ) ≤ num / den * 2 ^ f.unitBits ∧
      (num / den * 2 ^ f.unitBits : ℚ) < (num * 2 ^ f.unitBits / den : ℕ) + 1 := by
  have den_pos : (0 : ℚ) < den := by exact_mod_cast pos
  have units : (num / den * 2 ^ f.unitBits : ℚ) = (num * 2 ^ f.unitBits : ℕ) / den := by
    push_cast
    rw [div_mul_eq_mul_div]
  rw [units]
  refine ⟨Nat.cast_div_le, ?_⟩
  rw [div_lt_iff₀ den_pos]
  exact_mod_cast Nat.lt_mul_of_div_lt (Nat.lt_succ_self _) pos

/-- A ratio that is nearest to a mantissa at its scale, and near enough below a power of two,
has the pattern of the mantissa and the scale. -/
theorem ofRatio_eq (normal : f.Normal m s) (finite : s * 2 ^ f.fractionBits + m ≤ f.infinity)
    (near : |(num / den * 2 ^ f.unitBits / 2 ^ s : ℚ) - m| ≤ 1 / 2)
    (tie : |(num / den * 2 ^ f.unitBits / 2 ^ s : ℚ) - m| = 1 / 2 → m % 2 = 0)
    (below : m = 2 ^ f.fractionBits → 0 < s →
      (m : ℚ) - 1 / 4 ≤ num / den * 2 ^ f.unitBits / 2 ^ s) :
    f.ofRatio num den = s * 2 ^ f.fractionBits + m := by
  obtain ⟨floor_le, lt_floor⟩ := floor_units pos f num
  rw [← scaled_units] at near tie
  set units : ℚ := num / den * 2 ^ f.unitBits
  set floor := num * 2 ^ f.unitBits / den with floor_eq
  have most : (m : ℚ) + 1 ≤ 2 ^ (f.fractionBits + 1) := by exact_mod_cast normal.lt
  by_cases leads : s = 0 ∨ 2 ^ (f.fractionBits + s) ≤ floor
  · have less : floor < 2 ^ (f.fractionBits + s + 1) := by
      have upper : units < 2 ^ (f.fractionBits + 1) * 2 ^ s := by
        rw [← div_lt_iff₀ (by positivity), ← scaled_units]
        linarith [(abs_le.1 near).2]
      have : (floor : ℚ) < 2 ^ (f.fractionBits + s + 1) := by
        rw [add_right_comm, pow_add]
        exact floor_le.trans_lt upper
      exact_mod_cast this
    rw [ofRatio_of_log2 (log2_sub_eq leads less), divRoundEven_eq (by positivity) near tie,
      min_eq_left finite]
  · -- The ratio is rounded up to a power of two from the scale below.
    obtain ⟨some, short⟩ := not_or.1 leads
    obtain ⟨t, rfl⟩ := Nat.exists_eq_succ_of_ne_zero some
    have less : floor < 2 ^ (f.fractionBits + t + 1) := not_le.1 short
    have units_lt : units / 2 ^ t < 2 ^ (f.fractionBits + 1) := by
      rw [div_lt_iff₀ (by positivity), ← pow_add, add_right_comm]
      exact lt_floor.trans_le (by exact_mod_cast less)
    have half (x : ℚ) : x / 2 ^ (t + 1) = x / 2 ^ t / 2 := by rw [pow_succ, div_div]
    rw [scaled_units, half] at near
    rw [half] at below
    have power : m = 2 ^ f.fractionBits := by
      refine le_antisymm (Nat.lt_succ_iff.1 ?_) (normal.leading.resolve_left some)
      have : (m : ℚ) < 2 ^ f.fractionBits + 1 := by
        rw [pow_succ] at units_lt
        linarith [(abs_le.1 near).1]
      exact_mod_cast this
    have above := below power (Nat.succ_pos t)
    have leads : 2 ^ (f.fractionBits + t) ≤ floor := by
      have one_le : (1 : ℚ) ≤ 2 ^ f.fractionBits := one_le_pow₀ (by norm_num)
      have lower : (2 : ℚ) ^ f.fractionBits * 2 ^ t ≤ units := by
        rw [← le_div_iff₀ (by positivity)]
        rw [power] at above
        push_cast at above
        linarith
      rw [← pow_add] at lower
      exact Nat.lt_succ_iff.1 (by exact_mod_cast lower.trans_lt lt_floor)
    have rounded : divRoundEven (num * 2 ^ f.unitBits) (den * 2 ^ t) =
        2 ^ (f.fractionBits + 1) := by
      refine divRoundEven_eq (by positivity) ?_ fun _ => by rw [pow_succ, Nat.mul_mod_left]
      rw [scaled_units, abs_le]
      rw [power] at above
      push_cast at above ⊢
      rw [pow_succ] at units_lt ⊢
      constructor <;> linarith
    have carried : t * 2 ^ f.fractionBits + 2 ^ (f.fractionBits + 1) =
        (t + 1) * 2 ^ f.fractionBits + m := by
      rw [power]
      ring
    rw [ofRatio_of_log2 (log2_sub_eq (.inr leads) less), rounded, carried, min_eq_left finite]

/-- A ratio that the format expresses is not rounded. -/
theorem magnitude_ofRatio_exact {x : ℚ} (expressed : f.Expresses x) (is : (num / den : ℚ) = x) :
    f.magnitude (f.ofRatio num den) = x := by
  obtain ⟨n, t, n_pos, less, finite, exact⟩ := expressed
  obtain ⟨m, s, normal, same, le⟩ := exists_normal n_pos less t
  have ratio : (num / den : ℚ) = m * 2 ^ s / 2 ^ f.unitBits := by
    rw [is, exact]
    congr 1
    exact_mod_cast same.symm
  have mantissa : (num / den * 2 ^ f.unitBits / 2 ^ s : ℚ) = m := by
    rw [ratio]
    field_simp
  have read : f.ofRatio num den = s * 2 ^ f.fractionBits + m := by
    refine ofRatio_eq pos normal ?_ ?_ ?_ fun _ _ => ?_
    · have small := normal.lt
      calc s * 2 ^ f.fractionBits + m ≤ s * 2 ^ f.fractionBits + 2 ^ (f.fractionBits + 1) := by
            omega
        _ = (s + 2) * 2 ^ f.fractionBits := by ring
        _ ≤ (t + 2) * 2 ^ f.fractionBits := Nat.mul_le_mul_right _ (by omega)
        _ ≤ f.infinity := finite
    · rw [mantissa, sub_self, abs_zero]
      norm_num
    · rw [mantissa, sub_self, abs_zero]
      norm_num
    · rw [mantissa]
      linarith
  rw [read, magnitude, units_pattern normal, ← is, ratio]
  push_cast
  rfl

/-- In the normal range a ratio is rounded by at most half a unit in the last place. -/
theorem magnitude_ofRatio_near {x : ℚ} {top : ℕ} (is : (num / den : ℚ) = x)
    (least : (2 : ℚ) ^ f.fractionBits ≤ x * 2 ^ f.unitBits)
    (most : x * 2 ^ f.unitBits < 2 ^ (f.fractionBits + top + 1))
    (finite : (top + 2) * 2 ^ f.fractionBits < f.infinity) :
    |f.magnitude (f.ofRatio num den) - x| ≤ x / 2 ^ (f.fractionBits + 1) ∧
      f.ofRatio num den < f.infinity := by
  obtain ⟨floor_le, lt_floor⟩ := floor_units pos f num
  have near (s : ℕ) := divRoundEven_near (num * 2 ^ f.unitBits) (by positivity : 0 < den * 2 ^ s)
  simp only [scaled_units] at near
  rw [is] at floor_le lt_floor near
  set units : ℚ := x * 2 ^ f.unitBits with units_eq
  set floor := num * 2 ^ f.unitBits / den
  have leads : 2 ^ f.fractionBits ≤ floor :=
    Nat.lt_succ_iff.1 (by exact_mod_cast least.trans_lt lt_floor)
  have nonzero : floor ≠ 0 := (lt_of_lt_of_le (by positivity) leads).ne'
  obtain ⟨s, bits⟩ := Nat.exists_eq_add_of_le ((Nat.le_log2 nonzero).2 leads)
  obtain ⟨lower, upper⟩ := (Nat.log2_eq_iff nonzero).1 bits
  have s_le : s ≤ top := by
    have : floor < 2 ^ (f.fractionBits + top + 1) := by exact_mod_cast floor_le.trans_lt most
    have := (Nat.log2_lt nonzero).2 this
    omega
  have near := near s
  set mantissa := divRoundEven (num * 2 ^ f.unitBits) (den * 2 ^ s)
  have scaled_least : (2 : ℚ) ^ f.fractionBits ≤ units / 2 ^ s := by
    rw [le_div_iff₀ (by positivity), ← pow_add]
    exact le_trans (by exact_mod_cast lower) floor_le
  have scaled_most : units / 2 ^ s < 2 ^ (f.fractionBits + 1) := by
    rw [div_lt_iff₀ (by positivity), ← pow_add, add_right_comm]
    exact lt_floor.trans_le (by exact_mod_cast upper)
  obtain ⟨near_low, near_high⟩ := abs_le.1 near
  have mantissa_least : 2 ^ f.fractionBits ≤ mantissa := by
    have : (2 : ℚ) ^ f.fractionBits < mantissa + 1 := by linarith
    exact Nat.lt_succ_iff.1 (by exact_mod_cast this)
  have mantissa_most : mantissa ≤ 2 ^ (f.fractionBits + 1) := by
    have : (mantissa : ℚ) < 2 ^ (f.fractionBits + 1) + 1 := by linarith
    exact Nat.lt_succ_iff.1 (by exact_mod_cast this)
  have within : s * 2 ^ f.fractionBits + mantissa < f.infinity := by
    calc s * 2 ^ f.fractionBits + mantissa
        ≤ s * 2 ^ f.fractionBits + 2 ^ (f.fractionBits + 1) := by omega
      _ = (s + 2) * 2 ^ f.fractionBits := by ring
      _ ≤ (top + 2) * 2 ^ f.fractionBits := Nat.mul_le_mul_right _ (by omega)
      _ < f.infinity := finite
  have read : f.ofRatio num den = s * 2 ^ f.fractionBits + mantissa := by
    have scale_bits : (num * 2 ^ f.unitBits / den).log2 - f.fractionBits = s := by
      rw [bits, Nat.add_sub_cancel_left]
    rw [ofRatio_of_log2 scale_bits, min_eq_left within.le]
  refine ⟨?_, read ▸ within⟩
  have scale : x = units / 2 ^ s * (2 ^ s / 2 ^ f.unitBits) := by
    rw [units_eq]
    field_simp
  have error : f.magnitude (f.ofRatio num den) - x =
      (mantissa - units / 2 ^ s) * (2 ^ s / 2 ^ f.unitBits) := by
    rw [read, magnitude, units_of_leading mantissa_least mantissa_most, sub_mul, ← scale]
    push_cast
    ring
  have half : |(mantissa : ℚ) - units / 2 ^ s| ≤ units / 2 ^ s / 2 ^ (f.fractionBits + 1) := by
    refine near.trans ?_
    rw [le_div_iff₀ (by positivity), pow_succ]
    linarith
  calc |f.magnitude (f.ofRatio num den) - x|
      = |(mantissa : ℚ) - units / 2 ^ s| * (2 ^ s / 2 ^ f.unitBits) := by
        rw [error, abs_mul, abs_of_pos (by positivity : (0 : ℚ) < 2 ^ s / 2 ^ f.unitBits)]
    _ ≤ units / 2 ^ s / 2 ^ (f.fractionBits + 1) * (2 ^ s / 2 ^ f.unitBits) :=
        mul_le_mul_of_nonneg_right half (by positivity)
    _ = x / 2 ^ (f.fractionBits + 1) := by
        rw [scale]
        ring

end

end BinaryFormat

end SurfaceShading
