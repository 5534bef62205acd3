/-
  The shortest digits of a binary number.

  Main statements: a number rounds to a pattern exactly if it lies in the rounding interval of
  the pattern (`covers_iff`, `ofRatio_of_roundsTo`), and the search for the shortest digits ends
  on one of its grids, whose digits round to the pattern and are the nearest ones of the grid
  where the grid is fine (`exists_shortest`).
-/
import Mathlib
import SurfaceShading.Number.Shortest
import SurfaceShading.Proofs.Number.Rounding

namespace SurfaceShading

/-! ## Decimal digits -/

namespace Digits

/-- The number that digits and an exponent stand for. -/
def value (d : Digits) : ℚ := d.digits * 10 ^ d.exponent

theorem stripZeros_spec {n : ℕ} (pos : 0 < n) (e : ℤ) :
    (stripZeros n e).value = n * 10 ^ e ∧ 0 < (stripZeros n e).digits ∧
      (stripZeros n e).digits ≤ n ∧ e ≤ (stripZeros n e).exponent := by
  induction n, e using stripZeros.induct with
  | case1 n e ends ih =>
    obtain ⟨tenth, last⟩ : ∃ k, n = 10 * k := ⟨n / 10, by omega⟩
    subst last
    rw [stripZeros, dif_pos ends]
    rw [Nat.mul_div_cancel_left _ (by decide)] at ih ⊢
    obtain ⟨same, digits_pos, le, exponent_le⟩ := ih (by omega)
    refine ⟨?_, digits_pos, le.trans (by omega), by omega⟩
    rw [same, zpow_add_one₀ (by norm_num)]
    push_cast
    ring
  | case2 n e stops =>
    rw [stripZeros, dif_neg stops]
    exact ⟨rfl, pos, le_rfl, le_rfl⟩

theorem count_bounds {n : ℕ} (pos : 0 < n) : 10 ^ (count n - 1) ≤ n ∧ n < 10 ^ count n := by
  have count_pos : 0 < count n := Nat.length_toDigits_pos
  refine ⟨?_, (Nat.length_toDigits_le_iff (by decide) count_pos).1 le_rfl⟩
  by_cases one : count n = 1
  · rw [one]
    exact pos
  · refine not_lt.1 fun less => ?_
    have := (Nat.length_toDigits_le_iff (by decide) (by omega)).2 less
    rw [← count] at this
    omega

/-- A number lies between the power of ten of its first digit and the next one. -/
theorem leading_bounds {d : Digits} (pos : 0 < d.digits) :
    10 ^ d.leading ≤ d.value ∧ d.value < 10 ^ (d.leading + 1) := by
  obtain ⟨low, high⟩ := count_bounds pos
  have count_pos : 0 < count d.digits := Nat.length_toDigits_pos
  have split (k : ℕ) (n : ℤ) : (10 : ℚ) ^ (k + n : ℤ) = 10 ^ k * 10 ^ n := by
    rw [zpow_add₀ (by norm_num), zpow_natCast]
  have first : d.leading = (count d.digits - 1 : ℕ) + d.exponent := by
    unfold leading
    omega
  have next : d.leading + 1 = (count d.digits : ℕ) + d.exponent := by omega
  rw [next, first, split, split, value]
  exact ⟨mul_le_mul_of_nonneg_right (by exact_mod_cast low) (by positivity),
    mul_lt_mul_of_pos_right (by exact_mod_cast high) (by positivity)⟩

end Digits

namespace BinaryFormat

variable (f : BinaryFormat)

/-! ## The rounding interval -/

/-- The step of the format at a pattern. -/
def ulp (p : ℕ) : ℚ := 2 ^ (f.decode p).2 / 2 ^ f.unitBits

/-- How far the numbers that round to a pattern reach below it. -/
def gapBelow (p : ℕ) : ℚ :=
  if (f.decode p).1 = 2 ^ f.fractionBits ∧ 0 < (f.decode p).2 then f.ulp p / 4 else f.ulp p / 2

/-- A number is in the rounding interval of a pattern, whose ends belong to it if the mantissa
is even. -/
structure RoundsTo (p : ℕ) (x : ℚ) : Prop where
  low : f.magnitude p - f.gapBelow p < x ∨
    (f.decode p).1 % 2 = 0 ∧ x = f.magnitude p - f.gapBelow p
  high : x < f.magnitude p + f.ulp p / 2 ∨
    (f.decode p).1 % 2 = 0 ∧ x = f.magnitude p + f.ulp p / 2

variable {f} {p : ℕ}

theorem ulp_pos (f : BinaryFormat) (p : ℕ) : 0 < f.ulp p := by
  unfold ulp
  positivity

theorem magnitude_eq (f : BinaryFormat) (p : ℕ) :
    f.magnitude p = (f.decode p).1 * f.ulp p := by
  unfold magnitude units ulp
  push_cast
  ring

theorem gapBelow_bounds (f : BinaryFormat) (p : ℕ) :
    f.ulp p / 4 ≤ f.gapBelow p ∧ f.gapBelow p ≤ f.ulp p / 2 := by
  have pos := f.ulp_pos p
  unfold gapBelow
  split <;> constructor <;> linarith

theorem interval_value (f : BinaryFormat) (p : ℕ) :
    ((f.interval p).value : ℚ) / 2 ^ (f.unitBits + 2) = f.magnitude p := by
  rw [magnitude_eq, ulp, pow_add]
  unfold interval
  simp only [Nat.pow_eq]
  push_cast
  field_simp
  ring

theorem interval_high (f : BinaryFormat) (p : ℕ) :
    ((f.interval p).high : ℚ) / 2 ^ (f.unitBits + 2) = f.magnitude p + f.ulp p / 2 := by
  rw [magnitude_eq, ulp, pow_add]
  unfold interval
  simp only [Nat.pow_eq]
  push_cast
  field_simp
  ring

theorem interval_low (pos : 0 < (f.decode p).1) :
    ((f.interval p).low : ℚ) / 2 ^ (f.unitBits + 2) = f.magnitude p - f.gapBelow p := by
  have unit_pos : 0 < 2 ^ (f.decode p).2 := by positivity
  have room : 2 * 2 ^ (f.decode p).2 ≤ 4 * (f.decode p).1 * 2 ^ (f.decode p).2 :=
    Nat.mul_le_mul_right _ (by omega)
  rw [magnitude_eq, gapBelow, ulp, pow_add]
  unfold interval
  simp only [Nat.pow_eq]
  split
  · rw [Nat.cast_sub (by omega)]
    push_cast
    field_simp
    ring
  · rw [Nat.cast_sub room]
    push_cast
    field_simp
    ring

theorem covers_iff (pos : 0 < (f.decode p).1) {num den : ℕ} (den_pos : 0 < den) :
    (f.interval p).covers (2 ^ (f.unitBits + 2)) num den = true ↔
      f.RoundsTo p (num / den) := by
  have unit_pos : (0 : ℚ) < 2 ^ (f.unitBits + 2) := by positivity
  have den_pos : (0 : ℚ) < den := by exact_mod_cast den_pos
  have low := interval_low pos
  have high := interval_high f p
  have closed : (f.interval p).closed = ((f.decode p).1 % 2 == 0) := rfl
  have below (a : ℕ) : (a / 2 ^ (f.unitBits + 2) : ℚ) ≤ num / den ↔
      a * den ≤ num * 2 ^ (f.unitBits + 2) := by
    rw [div_le_div_iff₀ unit_pos den_pos]
    exact_mod_cast Iff.rfl
  have above (a : ℕ) : (num / den : ℚ) ≤ a / 2 ^ (f.unitBits + 2) ↔
      num * 2 ^ (f.unitBits + 2) ≤ a * den := by
    rw [div_le_div_iff₀ den_pos unit_pos]
    exact_mod_cast Iff.rfl
  unfold RoundingInterval.covers
  rw [closed]
  by_cases even : (f.decode p).1 % 2 = 0
  · rw [if_pos (beq_iff_eq.2 even), Bool.and_eq_true, decide_eq_true_eq, decide_eq_true_eq,
      ← below, ← above, low, high]
    constructor
    · rintro ⟨le, ge⟩
      exact ⟨le.lt_or_eq.imp id fun same => ⟨even, same.symm⟩,
        ge.lt_or_eq.imp id fun same => ⟨even, same⟩⟩
    · rintro ⟨le, ge⟩
      exact ⟨le.elim le_of_lt fun same => same.2.ge, ge.elim le_of_lt fun same => same.2.le⟩
  · rw [if_neg (fun is => even (beq_iff_eq.1 is)), Bool.and_eq_true, decide_eq_true_eq,
      decide_eq_true_eq, ← not_le, ← not_le, ← above, ← below, low, high, not_le, not_le]
    constructor
    · rintro ⟨lt, gt⟩
      exact ⟨.inl lt, .inl gt⟩
    · rintro ⟨lt, gt⟩
      exact ⟨lt.resolve_right fun same => even same.1, gt.resolve_right fun same => even same.1⟩

/-- A number in the rounding interval of a pattern rounds to it. -/
theorem ofRatio_of_roundsTo (finite : p ≤ f.infinity) {num den : ℕ} (den_pos : 0 < den)
    (near : f.RoundsTo p (num / den)) : f.ofRatio num den = p := by
  obtain ⟨normal, whole⟩ := decode_normal (f := f) p
  have ulp_pos := f.ulp_pos p
  obtain ⟨gap_least, gap_most⟩ := f.gapBelow_bounds p
  have scaled : (num / den * 2 ^ f.unitBits / 2 ^ (f.decode p).2 : ℚ) =
      num / den / f.ulp p := by
    unfold ulp
    field_simp
  have mantissa : ((f.decode p).1 : ℚ) = f.magnitude p / f.ulp p := by
    rw [magnitude_eq, mul_div_cancel_right₀ _ ulp_pos.ne']
  have low : f.magnitude p - f.gapBelow p ≤ num / den :=
    near.low.elim le_of_lt fun same => same.2.ge
  have high : (num / den : ℚ) ≤ f.magnitude p + f.ulp p / 2 :=
    near.high.elim le_of_lt fun same => same.2.le
  have distance : (num / den * 2 ^ f.unitBits / 2 ^ (f.decode p).2 : ℚ) - (f.decode p).1 =
      (num / den - f.magnitude p) / f.ulp p := by
    rw [scaled, mantissa, sub_div]
  conv_rhs => rw [← whole]
  refine ofRatio_eq den_pos normal (whole.symm ▸ finite) ?_ ?_ ?_
  · rw [distance, abs_le, le_div_iff₀ ulp_pos, div_le_iff₀ ulp_pos]
    constructor <;> linarith
  · rw [distance, abs_div, abs_of_pos ulp_pos, div_eq_iff ulp_pos.ne']
    intro half
    rcases abs_choice (num / den - f.magnitude p : ℚ) with above | below
    · exact (near.high.resolve_left (by linarith)).1
    · exact (near.low.resolve_left (by linarith)).1
  · intro power positive
    have gap : f.gapBelow p = f.ulp p / 4 := if_pos ⟨power, positive⟩
    rw [scaled, mantissa, le_div_iff₀ ulp_pos, sub_mul, div_mul_cancel₀ _ ulp_pos.ne']
    linarith

/-! ## Grids -/

theorem ten_zpow_eq (e : ℤ) : (10 : ℚ) ^ e = (10 ^ e.toNat : ℕ) / (10 ^ (-e).toNat : ℕ) := by
  push_cast
  rw [← zpow_natCast, ← zpow_natCast, ← zpow_sub₀ (by norm_num)]
  congr 1
  omega

/-- The lower of the two neighbours on a grid. -/
def floorOn (f : BinaryFormat) (p : ℕ) (e : ℤ) : ℕ :=
  (f.interval p).value * 10 ^ (-e).toNat / (2 ^ (f.unitBits + 2) * 10 ^ e.toNat)

/-- Whether the lower neighbour on a grid is the nearer one, or the chosen one of a tie. -/
def towardFloor (f : BinaryFormat) (ties : TieRule) (p : ℕ) (e : ℤ) : Bool :=
  let twice := 2 * ((f.interval p).value * 10 ^ (-e).toNat)
  let middle := (2 * f.floorOn p e + 1) * (2 ^ (f.unitBits + 2) * 10 ^ e.toNat)
  twice < middle || (twice == middle && ties.keeps (f.floorOn p e))

theorem steps_eq (f : BinaryFormat) (p : ℕ) (e : ℤ) : f.magnitude p / 10 ^ e =
    ((f.interval p).value * 10 ^ (-e).toNat : ℕ) / (2 ^ (f.unitBits + 2) * 10 ^ e.toNat : ℕ) := by
  rw [← interval_value, ten_zpow_eq]
  push_cast
  field_simp

theorem floorOn_bounds (f : BinaryFormat) (p : ℕ) (e : ℤ) :
    f.floorOn p e * 10 ^ e ≤ f.magnitude p ∧ f.magnitude p < (f.floorOn p e + 1) * 10 ^ e := by
  have step_pos : (0 : ℚ) < 10 ^ e := by positivity
  have whole_pos : 0 < 2 ^ (f.unitBits + 2) * 10 ^ e.toNat := by positivity
  rw [← le_div_iff₀ step_pos, ← div_lt_iff₀ step_pos, steps_eq]
  refine ⟨Nat.cast_div_le, ?_⟩
  rw [div_lt_iff₀ (by exact_mod_cast whole_pos)]
  exact_mod_cast Nat.lt_mul_of_div_lt (Nat.lt_succ_self _) whole_pos

theorem towardFloor_near (ties : TieRule) (p : ℕ) (e : ℤ) :
    (f.towardFloor ties p e = true → |f.floorOn p e * 10 ^ e - f.magnitude p| ≤ 10 ^ e / 2) ∧
      (f.towardFloor ties p e = false →
        |(f.floorOn p e + 1 : ℕ) * 10 ^ e - f.magnitude p| ≤ 10 ^ e / 2) := by
  have step_pos : (0 : ℚ) < 10 ^ e := by positivity
  have whole_pos : 0 < 2 ^ (f.unitBits + 2) * 10 ^ e.toNat := by positivity
  have whole_pos' : (0 : ℚ) < (2 ^ (f.unitBits + 2) * 10 ^ e.toNat : ℕ) := by
    exact_mod_cast whole_pos
  obtain ⟨least, less⟩ := f.floorOn_bounds p e
  have steps : f.magnitude p = ((f.interval p).value * 10 ^ (-e).toNat : ℕ) /
      (2 ^ (f.unitBits + 2) * 10 ^ e.toNat : ℕ) * 10 ^ e := by
    rw [← steps_eq, div_mul_cancel₀ _ step_pos.ne']
  unfold towardFloor
  simp only [Bool.or_eq_true, Bool.and_eq_true, decide_eq_true_eq, beq_iff_eq, Bool.or_eq_false_iff,
    decide_eq_false_iff_not]
  constructor
  · intro toward
    have le : 2 * ((f.interval p).value * 10 ^ (-e).toNat) ≤
        (2 * f.floorOn p e + 1) * (2 ^ (f.unitBits + 2) * 10 ^ e.toNat) :=
      toward.elim le_of_lt fun same => same.1.le
    have below : 2 * f.magnitude p ≤ (2 * f.floorOn p e + 1) * 10 ^ e := by
      rw [steps, ← mul_assoc, ← mul_div_assoc]
      refine mul_le_mul_of_nonneg_right ?_ step_pos.le
      rw [div_le_iff₀ whole_pos']
      exact_mod_cast le
    rw [abs_le]
    constructor <;> linarith
  · rintro ⟨toward, -⟩
    have above : (2 * f.floorOn p e + 1) * 10 ^ e ≤ 2 * f.magnitude p := by
      rw [steps, ← mul_assoc, ← mul_div_assoc]
      refine mul_le_mul_of_nonneg_right ?_ step_pos.le
      rw [le_div_iff₀ whole_pos']
      exact_mod_cast not_lt.1 toward
    push_cast
    rw [abs_le]
    constructor <;> linarith

/-- What a grid gives, by its two neighbours of the number. -/
theorem onGrid?_eq (pos : 0 < (f.decode p).1) (ties : TieRule) (e : ℤ) :
    ∃ below above : Bool, (below = true ↔ f.RoundsTo p (f.floorOn p e * 10 ^ e)) ∧
      (above = true ↔ f.RoundsTo p ((f.floorOn p e + 1 : ℕ) * 10 ^ e)) ∧
      (f.interval p).onGrid? ties (2 ^ (f.unitBits + 2)) e =
        if below && (f.towardFloor ties p e || !above) then
          some (.stripZeros (f.floorOn p e) e)
        else if above then some (.stripZeros (f.floorOn p e + 1) e)
        else none := by
  have down_pos : 0 < 10 ^ (-e).toNat := by positivity
  have ratio (k : ℕ) : ((k * 10 ^ e.toNat : ℕ) / (10 ^ (-e).toNat : ℕ) : ℚ) = k * 10 ^ e := by
    rw [ten_zpow_eq]
    push_cast
    rw [mul_div_assoc]
  refine ⟨_, _, ?_, ?_, rfl⟩
  · rw [← ratio]
    exact covers_iff pos down_pos
  · rw [← ratio]
    exact covers_iff pos down_pos

/-- What a grid gives rounds to the pattern, and is nearest of the grid if all that is as near
as half a step rounds to the pattern. A grid of which this holds gives something. -/
theorem onGrid?_spec (pos : 0 < (f.decode p).1) (ties : TieRule) (e : ℤ) :
    (∀ d, (f.interval p).onGrid? ties (2 ^ (f.unitBits + 2)) e = some d →
      ∃ n : ℕ, d = .stripZeros n e ∧ f.RoundsTo p (n * 10 ^ e) ∧
        ((∀ k : ℕ, |k * 10 ^ e - f.magnitude p| ≤ 10 ^ e / 2 → f.RoundsTo p (k * 10 ^ e)) →
          |n * 10 ^ e - f.magnitude p| ≤ 10 ^ e / 2)) ∧
      ((∀ k : ℕ, |k * 10 ^ e - f.magnitude p| ≤ 10 ^ e / 2 → f.RoundsTo p (k * 10 ^ e)) →
        (f.interval p).onGrid? ties (2 ^ (f.unitBits + 2)) e ≠ none) := by
  obtain ⟨below, above, below_iff, above_iff, is⟩ := onGrid?_eq pos ties e
  obtain ⟨floor_near, next_near⟩ := @towardFloor_near f ties p e
  rw [is]
  constructor
  · intro d given
    split at given
    · next chosen =>
      cases given
      simp only [Bool.and_eq_true, Bool.or_eq_true, Bool.not_eq_true'] at chosen
      refine ⟨_, rfl, below_iff.1 chosen.1, fun fits => ?_⟩
      by_cases toward : f.towardFloor ties p e = true
      · exact floor_near toward
      · have := above_iff.2 (fits _ (next_near (Bool.eq_false_of_not_eq_true toward)))
        rw [chosen.2.resolve_left toward] at this
        cases this
    · next other =>
      split at given
      · next next_in =>
        cases given
        refine ⟨_, rfl, above_iff.1 next_in, fun fits => ?_⟩
        cases toward : f.towardFloor ties p e with
        | false => exact next_near toward
        | true =>
          have := below_iff.2 (fits _ (floor_near toward))
          rw [this, toward] at other
          exact absurd rfl other
      · cases given
  · intro fits
    cases toward : f.towardFloor ties p e with
    | true =>
      rw [below_iff.2 (fits _ (floor_near toward))]
      exact Option.some_ne_none _
    | false =>
      rw [above_iff.2 (fits _ (next_near toward))]
      cases below <;> exact Option.some_ne_none _

/-! ## The search -/

theorem mantissa_pos (pos : 0 < p) : 0 < (f.decode p).1 := by
  obtain ⟨normal, whole⟩ := decode_normal (f := f) p
  refine Nat.pos_of_ne_zero fun zero => ?_
  rcases normal.leading with least | leads
  · rw [zero, least, Nat.zero_mul] at whole
    exact pos.ne whole
  · rw [zero] at leads
    exact absurd leads (not_le.2 (by positivity))

theorem magnitude_pos (pos : 0 < p) : 0 < f.magnitude p := by
  rw [magnitude_eq]
  exact mul_pos (by exact_mod_cast mantissa_pos pos) (f.ulp_pos p)

theorem roundsTo_of_near {x : ℚ} (near : |x - f.magnitude p| < f.gapBelow p) : f.RoundsTo p x := by
  obtain ⟨low, high⟩ := abs_lt.1 near
  have most := (f.gapBelow_bounds p).2
  exact ⟨.inl (by linarith), .inl (by linarith)⟩

/-- The whole decimal expansion of a number, at which its first digit is found. -/
theorem expansion_value (pos : 0 < p) :
    let exact := Digits.stripZeros ((f.interval p).value * Nat.pow 5 (f.unitBits + 2))
      (-(f.unitBits + 2 : ℤ))
    exact.value = f.magnitude p ∧ 0 < exact.digits := by
  have value_pos : 0 < (f.interval p).value * Nat.pow 5 (f.unitBits + 2) := by
    refine Nat.mul_pos ?_ (Nat.pow_pos (by decide))
    have := magnitude_pos (f := f) pos
    rw [← interval_value] at this
    refine Nat.pos_of_ne_zero fun zero => ?_
    rw [zero, Nat.cast_zero, zero_div] at this
    exact this.false
  obtain ⟨same, digits_pos, -, -⟩ := Digits.stripZeros_spec value_pos (-(f.unitBits + 2 : ℤ))
  refine ⟨?_, digits_pos⟩
  have ten : (10 : ℚ) ^ (-(f.unitBits + 2 : ℤ)) = 1 / (5 ^ (f.unitBits + 2) * 2 ^ (f.unitBits + 2)) := by
    rw [zpow_neg, ← mul_pow, one_div]
    norm_num
    exact_mod_cast rfl
  rw [same, ten, ← interval_value, Nat.pow_eq]
  push_cast
  field_simp

/-- The grid eight digits below the first one is fine enough for single precision. -/
theorem fits_of_fine {step : ℚ} (fine : step * 10 ^ 8 ≤ single.magnitude p) (k : ℕ)
    (near : |k * step - single.magnitude p| ≤ step / 2) : single.RoundsTo p (k * step) := by
  have ulp_pos := single.ulp_pos p
  have mantissa_lt : ((single.decode p).1 : ℚ) < 2 ^ 24 := by
    exact_mod_cast (decode_normal (f := single) p).1.lt
  have less : single.magnitude p < 2 ^ 24 * single.ulp p := by
    rw [magnitude_eq]
    exact mul_lt_mul_of_pos_right mantissa_lt ulp_pos
  refine roundsTo_of_near (near.trans_lt ?_)
  linarith [(single.gapBelow_bounds p).1]

/-- The digits that the search finds are those of a grid at most eight digits below the first
one. They round to the pattern, and are nearest of the grid if all that is as near as half a
step rounds to the pattern. -/
theorem exists_shortest (pos : 0 < p) (ties : TieRule) : ∃ (n : ℕ) (e : ℤ),
    single.shortest ties p = .stripZeros n e ∧ single.RoundsTo p (n * 10 ^ e) ∧
      single.magnitude p < 10 ^ (e + 9) ∧
      ((∀ k : ℕ, |k * 10 ^ e - single.magnitude p| ≤ 10 ^ e / 2 →
        single.RoundsTo p (k * 10 ^ e)) → |n * 10 ^ e - single.magnitude p| ≤ 10 ^ e / 2) := by
  obtain ⟨value, digits_pos⟩ := expansion_value (f := single) pos
  have mantissa := mantissa_pos (f := single) pos
  obtain ⟨first, next⟩ := Digits.leading_bounds digits_pos
  rw [value] at first next
  unfold shortest
  dsimp only
  set exact := Digits.stripZeros ((single.interval p).value * Nat.pow 5 (single.unitBits + 2))
    (-(single.unitBits + 2 : ℤ))
  set top := exact.leading
  set found := (List.range (single.fractionBits / 3 + 2)).findSome? fun n : ℕ =>
    (single.interval p).onGrid? ties (Nat.pow 2 (single.unitBits + 2)) (top - n) with found_eq
  have some : found ≠ none := by
    rw [found_eq, Ne, List.findSome?_eq_none_iff]
    intro none
    refine (onGrid?_spec mantissa ties (top - 8)).2 (fits_of_fine ?_)
      (none 8 (List.mem_range.2 (by decide)))
    rw [zpow_sub₀ (by norm_num)]
    norm_num
    exact first
  obtain ⟨d, is⟩ := Option.ne_none_iff_exists'.1 some
  obtain ⟨k, mem, given⟩ := List.exists_of_findSome?_eq_some is
  have k_le : k ≤ 8 := Nat.lt_succ_iff.1 (List.mem_range.1 mem)
  obtain ⟨n, rfl, rounds, nearest⟩ := (onGrid?_spec mantissa ties (top - k)).1 d given
  refine ⟨n, top - k, by rw [is, Option.getD_some], rounds, next.trans_le ?_, nearest⟩
  exact zpow_le_zpow_right₀ (by norm_num) (by omega)

end BinaryFormat

end SurfaceShading
