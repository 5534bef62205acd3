/-
  The shortest digits of a number in single precision read back.

  The reader of files works in double precision and errs a little, and the shortest digits may
  be near a midpoint. Where the digits are more than the mantissa, the grid of the last digit is
  finer than single precision, and the nearest point of it keeps farther from the midpoints than
  the reader errs. Fewer digits keep away by the search over all exponents. Main statement: what
  is read of the shortest digits rounds to the pattern that they were written for
  (`narrow_reading`).
-/
import SurfaceShading.Proofs.Number.Midpoints
import SurfaceShading.Proofs.Number.Shortest

namespace SurfaceShading

open BinaryFormat (single double)

namespace BinaryFormat

variable {f : BinaryFormat} {p : ℕ} {x y : ℚ}

/-- What stands to the ends of a rounding interval as a number in it does is in it too. -/
theorem RoundsTo.of_sameSide (rounds : f.RoundsTo p x)
    (low : SameSide x y (f.magnitude p - f.gapBelow p))
    (high : SameSide x y (f.magnitude p + f.ulp p / 2)) : f.RoundsTo p y where
  low := rounds.low.imp low.above fun same => ⟨same.1, low.on same.2⟩
  high := rounds.high.imp high.below fun same => ⟨same.1, high.on same.2⟩

theorem RoundsTo.le (rounds : f.RoundsTo p x) : x ≤ f.magnitude p + f.ulp p / 2 :=
  rounds.high.elim le_of_lt fun same => same.2.le

theorem RoundsTo.ge (rounds : f.RoundsTo p x) : f.magnitude p - f.gapBelow p ≤ x :=
  rounds.low.elim le_of_lt fun same => same.2.ge

/-- The parts of a finite pattern of single precision, and its step. -/
theorem single_parts (finite : p < single.infinity) :
    (single.decode p).1 < 2 ^ 24 ∧ (single.decode p).2 ≤ 253 ∧
      single.ulp p = 2 ^ (((single.decode p).2 : ℤ) - 149) := by
  obtain ⟨normal, whole⟩ := decode_normal (f := single) p
  refine ⟨normal.lt, ?_, ?_⟩
  · have limit : single.infinity = 255 * 2 ^ 23 := by decide
    have bits : single.fractionBits = 23 := rfl
    rw [limit] at finite
    rw [bits] at whole
    rcases normal.leading with least | leads
    · omega
    · rw [bits] at leads
      omega
  · rw [ulp, zpow_sub₀ (by norm_num), zpow_natCast]
    rfl

end BinaryFormat

theorem Binary32.narrow_of_roundsTo {p y : ℕ} (finite : p ≤ single.infinity)
    (rounds : single.RoundsTo p (double.magnitude y)) (negative : Bool) :
    narrow negative y = ofMagnitude negative p := by
  rw [narrow_eq, BinaryFormat.ofRatio_of_roundsTo finite (Nat.two_pow_pos _)]
  rw [Nat.cast_pow, Nat.cast_ofNat]
  exact rounds

section

variable {p n : ℕ} {e : ℤ} {d : Digits} {x : ℚ}

/-- Digits of a grid that is finer than single precision: what is read of them rounds to the
pattern for which they are nearest. -/
theorem roundsTo_of_fine (finite : p < single.infinity) (value : d.value = n * 10 ^ e)
    (le : d.digits ≤ n) (rounds : single.RoundsTo p (n * 10 ^ e))
    (nearest : (∀ k : ℕ, |k * 10 ^ e - single.magnitude p| ≤ 10 ^ e / 2 →
      single.RoundsTo p (k * 10 ^ e)) → |n * 10 ^ e - single.magnitude p| ≤ 10 ^ e / 2)
    (fine : ((single.decode p).1 + 1) * single.ulp p ≤ 2 * (d.digits * single.gapBelow p))
    (near : |x - d.value| ≤ d.value / 2 ^ 51) : single.RoundsTo p x := by
  have ulp_pos := single.ulp_pos p
  obtain ⟨gap_least, gap_most⟩ := single.gapBelow_bounds p
  have magnitude := single.magnitude_eq p
  have most := rounds.le
  have mantissa_lt : ((single.decode p).1 : ℚ) + 1 ≤ 2 ^ 24 := by
    exact_mod_cast (BinaryFormat.single_parts finite).1
  have mantissa_nonneg : (0 : ℚ) ≤ (single.decode p).1 := by positivity
  have digits_le : (d.digits : ℚ) ≤ n := by exact_mod_cast le
  have step_pos : (0 : ℚ) < 10 ^ e := by positivity
  rw [value] at near
  rw [magnitude] at nearest most
  set m := ((single.decode p).1 : ℚ)
  set u := single.ulp p
  set gap := single.gapBelow p
  set step : ℚ := 10 ^ e
  -- The step of the grid against the gap below the number.
  have step_le : step * (m + 1) ≤ (2 * m + 1) * gap := by
    refine le_of_mul_le_mul_right ?_ ulp_pos
    calc step * (m + 1) * u = step * ((m + 1) * u) := by ring
      _ ≤ step * (2 * (n * gap)) :=
          mul_le_mul_of_nonneg_left (fine.trans (by gcongr; linarith)) step_pos.le
      _ = 2 * gap * (n * step) := by ring
      _ ≤ 2 * gap * (m * u + u / 2) := mul_le_mul_of_nonneg_left most (by linarith)
      _ = (2 * m + 1) * gap * u := by ring
  have margin : u ≤ (gap - step / 2) * (8 * (m + 1)) := by linarith
  have margin_pos : 0 < gap - step / 2 :=
    pos_of_mul_pos_left (ulp_pos.trans_le margin) (by linarith)
  have close := nearest fun k within =>
    BinaryFormat.roundsTo_of_near (magnitude ▸ within.trans_lt (by linarith))
  obtain ⟨close_low, close_high⟩ := abs_le.1 close
  have error : n * step / 2 ^ 51 < gap - step / 2 := by
    rw [div_lt_iff₀ (by positivity)]
    refine lt_of_mul_lt_mul_right ?_ (by linarith : 0 ≤ 8 * (m + 1))
    calc n * step * (8 * (m + 1)) ≤ (m * u + u / 2) * (8 * (m + 1)) :=
          mul_le_mul_of_nonneg_right most (by linarith)
      _ = 8 * ((m + 1 / 2) * (m + 1)) * u := by ring
      _ < 2 ^ 51 * u := by
          refine mul_lt_mul_of_pos_right ?_ ulp_pos
          nlinarith
      _ ≤ 2 ^ 51 * ((gap - step / 2) * (8 * (m + 1))) :=
          mul_le_mul_of_nonneg_left margin (by norm_num)
      _ = (gap - step / 2) * 2 ^ 51 * (8 * (m + 1)) := by ring
  refine rounds.of_sameSide (sameSide_of_far near ?_) (sameSide_of_far near ?_)
  · rw [magnitude]
    exact error.trans_le (le_trans (by linarith) (le_abs_self _))
  · rw [magnitude]
    exact error.trans_le (le_trans (by linarith) (neg_le_abs _))

/-- A number of single precision is less than the next power of two over the mantissas. -/
theorem le_ulp_of_roundsTo (finite : p < single.infinity) (rounds : single.RoundsTo p x) :
    x ≤ 2 ^ 24 * single.ulp p := by
  have mantissa_lt : ((single.decode p).1 : ℚ) + 1 ≤ 2 ^ 24 := by
    exact_mod_cast (BinaryFormat.single_parts finite).1
  have ulp_pos := single.ulp_pos p
  refine rounds.le.trans ?_
  rw [single.magnitude_eq]
  nlinarith

theorem le_exponent (finite : p < single.infinity) (low : single.ulp p / 4 ≤ 10 ^ e) :
    -45 ≤ e := by
  obtain ⟨-, s_le, ulp_eq⟩ := BinaryFormat.single_parts finite
  have least : (2 : ℚ) ^ (-149 : ℤ) ≤ single.ulp p :=
    ulp_eq ▸ zpow_le_zpow_right₀ (by norm_num) (by omega)
  have : (10 : ℚ) ^ (-46 : ℤ) < 10 ^ e := by
    refine lt_of_lt_of_le ?_ ((div_le_div_of_nonneg_right least (by norm_num)).trans low)
    norm_num
  have := (zpow_lt_zpow_iff_right₀ (by norm_num)).1 this
  omega

theorem exponent_le (finite : p < single.infinity)
    (high : (10 : ℚ) ^ e ≤ 2 ^ 24 * single.ulp p) : e ≤ 38 := by
  obtain ⟨-, s_le, ulp_eq⟩ := BinaryFormat.single_parts finite
  have most : single.ulp p ≤ 2 ^ (104 : ℤ) :=
    ulp_eq ▸ zpow_le_zpow_right₀ (by norm_num) (by omega)
  have : (10 : ℚ) ^ e < 10 ^ (39 : ℤ) := by
    refine lt_of_le_of_lt (high.trans (mul_le_mul_of_nonneg_left most (by norm_num))) ?_
    norm_num
  have := (zpow_lt_zpow_iff_right₀ (by norm_num)).1 this
  omega

/-- The power of ten of the last digit is at most the number. -/
theorem power_le (digits_pos : 0 < d.digits) : (10 : ℚ) ^ d.exponent ≤ d.value :=
  le_mul_of_one_le_left (by positivity) (by exact_mod_cast digits_pos)

/-- Fewer digits: what is read of them stands on their side of both midpoints. -/
theorem roundsTo_of_coarse (pos : 0 < p) (finite : p < single.infinity)
    (digits_pos : 0 < d.digits) (rounds : single.RoundsTo p d.value)
    (coarse : 2 * (d.digits * single.gapBelow p) < ((single.decode p).1 + 1) * single.ulp p) :
    single.RoundsTo p (double.magnitude (ScaledWord.reading d.digits d.exponent)) := by
  obtain ⟨m_lt, s_le, ulp_eq⟩ := BinaryFormat.single_parts finite
  have ulp_pos := single.ulp_pos p
  have magnitude := single.magnitude_eq p
  have m_pos := BinaryFormat.mantissa_pos (f := single) pos
  have one_le : (1 : ℚ) ≤ (single.decode p).1 := by exact_mod_cast m_pos
  have mantissa_lt : ((single.decode p).1 : ℚ) + 1 ≤ 2 ^ 24 := by exact_mod_cast m_lt
  have power_pos : (0 : ℚ) < 10 ^ d.exponent := by positivity
  have half : (2 : ℚ) ^ (((single.decode p).2 : ℤ) - 150) = single.ulp p / 2 := by
    rw [ulp_eq, show ((single.decode p).2 : ℤ) - 150 = (single.decode p).2 - 149 - 1 by ring,
      zpow_sub_one₀ (by norm_num), div_eq_mul_inv]
  have quarter : (2 : ℚ) ^ (((single.decode p).2 : ℤ) - 151) = single.ulp p / 4 := by
    rw [ulp_eq, show ((single.decode p).2 : ℤ) - 151 = (single.decode p).2 - 149 - 2 by ring,
      zpow_sub₀ (by norm_num)]
    norm_num
  have step_le := (power_le digits_pos).trans (le_ulp_of_roundsTo finite rounds)
  have value_ge := rounds.ge
  have gap_least := (single.gapBelow_bounds p).1
  rw [magnitude] at value_ge
  -- The number of digits bounds the grid from below.
  have least : d.digits < Midpoints.wordLimit ∧ single.ulp p / 4 ≤ 10 ^ d.exponent := by
    rw [Digits.value] at value_ge
    by_cases power : (single.decode p).1 = 2 ^ single.fractionBits ∧ 0 < (single.decode p).2
    · have mantissa : ((single.decode p).1 : ℚ) = 2 ^ 23 := by exact_mod_cast power.1
      rw [BinaryFormat.gapBelow, if_pos power, mantissa] at coarse value_ge
      have digits_lt : (d.digits : ℚ) < 2 ^ 24 + 2 := by
        refine lt_of_mul_lt_mul_right ?_ ulp_pos.le
        linarith
      have digits_le : (d.digits : ℚ) ≤ 2 ^ 24 + 1 := by
        have : d.digits < 2 ^ 24 + 2 := by exact_mod_cast digits_lt
        exact_mod_cast Nat.lt_succ_iff.1 this
      have := mul_le_mul_of_nonneg_right digits_le power_pos.le
      exact ⟨by unfold Midpoints.wordLimit; exact_mod_cast digits_lt, by linarith⟩
    · rw [BinaryFormat.gapBelow, if_neg power] at coarse value_ge
      have digits_lt : (d.digits : ℚ) < (single.decode p).1 + 1 := by
        refine lt_of_mul_lt_mul_right ?_ ulp_pos.le
        linarith
      have digits_le : d.digits ≤ (single.decode p).1 :=
        Nat.lt_succ_iff.1 (by exact_mod_cast digits_lt)
      have := mul_le_mul_of_nonneg_right
        (by exact_mod_cast digits_le : (d.digits : ℚ) ≤ (single.decode p).1) power_pos.le
      refine ⟨by unfold Midpoints.wordLimit; omega, ?_⟩
      refine le_of_mul_le_mul_left ?_ (by linarith : (0 : ℚ) < (single.decode p).1)
      nlinarith
  obtain ⟨digits_lt, power_least⟩ := least
  have e_low := le_exponent finite power_least
  have e_high := exponent_le finite step_le
  have side {q : ℤ} {m : ℕ} (q_low : -151 ≤ q) (q_high : q ≤ 103)
      (low : single.ulp p / 4 ≤ 2 ^ q) (high : (2 : ℚ) ^ q ≤ single.ulp p / 2) (odd : m % 2 = 1)
      (less : m < Midpoints.mantissaLimit) :
      SameSide d.value (double.magnitude (ScaledWord.reading d.digits d.exponent)) (m * 2 ^ q) :=
    reading_sameSide e_low e_high q_low q_high (by linarith) (by linarith) digits_pos digits_lt
      less odd
  refine rounds.of_sameSide ?_ ?_
  · by_cases power : (single.decode p).1 = 2 ^ single.fractionBits ∧ 0 < (single.decode p).2
    · have lower : single.magnitude p - single.gapBelow p =
          (4 * (single.decode p).1 - 1 : ℕ) * 2 ^ (((single.decode p).2 : ℤ) - 151) := by
        rw [magnitude, quarter, BinaryFormat.gapBelow, if_pos power, Nat.cast_sub (by omega)]
        push_cast
        ring
      have mantissa : (single.decode p).1 = 8388608 := power.1
      rw [lower]
      exact side (by omega) (by omega) quarter.ge (by rw [quarter]; linarith) (by omega)
        (by unfold Midpoints.mantissaLimit; omega)
    · have lower : single.magnitude p - single.gapBelow p =
          (2 * (single.decode p).1 - 1 : ℕ) * 2 ^ (((single.decode p).2 : ℤ) - 150) := by
        rw [magnitude, half, BinaryFormat.gapBelow, if_neg power, Nat.cast_sub (by omega)]
        push_cast
        ring
      rw [lower]
      exact side (by omega) (by omega) (by rw [half]; linarith) half.le (by omega)
        (by unfold Midpoints.mantissaLimit; omega)
  · have upper : single.magnitude p + single.ulp p / 2 =
        (2 * (single.decode p).1 + 1 : ℕ) * 2 ^ (((single.decode p).2 : ℤ) - 150) := by
      rw [magnitude, half]
      push_cast
      ring
    rw [upper]
    exact side (by omega) (by omega) (by rw [half]; linarith) half.le (by omega)
      (by unfold Midpoints.mantissaLimit; omega)

end

/-! ## The shortest digits -/

section

variable {p : ℕ}

/-- The grids on which the shortest digits are found, and how many digits there are. -/
theorem grid_bounds {n : ℕ} {e : ℤ} (pos : 0 < p) (finite : p < single.infinity)
    (rounds : single.RoundsTo p (n * 10 ^ e)) (next : single.magnitude p < 10 ^ (e + 9)) :
    0 < n ∧ n < 2 ^ 31 ∧ -54 ≤ e := by
  have ulp_pos := single.ulp_pos p
  have magnitude := single.magnitude_eq p
  have one_le : (1 : ℚ) ≤ (single.decode p).1 := by
    exact_mod_cast BinaryFormat.mantissa_pos (f := single) pos
  have ulp_le : single.ulp p ≤ single.magnitude p := by
    rw [magnitude]
    exact le_mul_of_one_le_left ulp_pos.le one_le
  have power_pos : (0 : ℚ) < 10 ^ e := by positivity
  have split : (10 : ℚ) ^ (e + 9) = 10 ^ 9 * 10 ^ e := by
    rw [zpow_add₀ (by norm_num), mul_comm]
    norm_num
  refine ⟨Nat.pos_of_ne_zero fun zero => ?_, ?_, ?_⟩
  · have ge := rounds.ge
    rw [zero, Nat.cast_zero, zero_mul] at ge
    linarith [(single.gapBelow_bounds p).2]
  · have less : (n : ℚ) < 2 * 10 ^ 9 := by
      refine lt_of_mul_lt_mul_right ?_ power_pos.le
      linarith [rounds.le]
    have : n < 2 * 10 ^ 9 := by exact_mod_cast less
    omega
  · obtain ⟨-, s_le, ulp_eq⟩ := BinaryFormat.single_parts finite
    have least : (2 : ℚ) ^ (-149 : ℤ) ≤ single.ulp p :=
      ulp_eq ▸ zpow_le_zpow_right₀ (by norm_num) (by omega)
    have : (10 : ℚ) ^ (-45 : ℤ) < 10 ^ (e + 9) := by
      refine lt_of_lt_of_le ?_ ((least.trans ulp_le).trans next.le)
      norm_num
    have := (zpow_lt_zpow_iff_right₀ (by norm_num)).1 this
    omega

theorem shortest_spec (pos : 0 < p) (finite : p < single.infinity) (ties : TieRule) :
    let d := single.shortest ties p
    0 < d.digits ∧ d.digits < 2 ^ 31 ∧ -54 ≤ d.exponent ∧ d.exponent ≤ 38 ∧
      single.RoundsTo p d.value ∧
      single.RoundsTo p (double.magnitude (ScaledWord.reading d.digits d.exponent)) := by
  obtain ⟨n, e, is, rounds, next, nearest⟩ := BinaryFormat.exists_shortest pos ties
  obtain ⟨n_pos, n_lt, e_low⟩ := grid_bounds pos finite rounds next
  obtain ⟨value, digits_pos, digits_le, grid_le⟩ := Digits.stripZeros_spec n_pos e
  dsimp only
  rw [← is] at value digits_pos digits_le grid_le
  set d := single.shortest ties p
  have digits_lt : d.digits < 2 ^ 31 := digits_le.trans_lt n_lt
  have d_rounds : single.RoundsTo p d.value := value ▸ rounds
  have e_high : d.exponent ≤ 38 :=
    exponent_le finite ((power_le digits_pos).trans (le_ulp_of_roundsTo finite d_rounds))
  refine ⟨digits_pos, digits_lt, e_low.trans grid_le, e_high, d_rounds, ?_⟩
  rcases le_or_gt (((single.decode p).1 + 1) * single.ulp p)
    (2 * (d.digits * single.gapBelow p)) with fine | coarse
  · have near := (ScaledWord.toDouble?_near digits_pos (digits_lt.trans (by decide))
      (e_low.trans grid_le) (by omega)).2.1
    exact roundsTo_of_fine finite value digits_le rounds nearest fine near
  · exact roundsTo_of_coarse pos finite digits_pos d_rounds coarse

/-- What is read of the shortest digits is the number that they were written for. -/
theorem narrow_reading (pos : 0 < p) (finite : p < single.infinity) (ties : TieRule)
    (negative : Bool) :
    (ScaledWord.toDouble? ⟨(single.shortest ties p).digits,
      (single.shortest ties p).exponent⟩).map (Binary32.narrow negative) =
        some (Binary32.ofMagnitude negative p) := by
  obtain ⟨digits_pos, digits_lt, e_low, e_high, -, read⟩ := shortest_spec pos finite ties
  rw [(ScaledWord.toDouble?_near digits_pos (digits_lt.trans (by decide)) e_low (by omega)).1,
    Option.map_some, Binary32.narrow_of_roundsTo finite.le read]

/-- A whole number that is written with a zero after the point is read without an error. -/
theorem narrow_reading_whole (pos : 0 < p) (finite : p < single.infinity) (ties : TieRule)
    (negative : Bool) {k : ℕ} (whole : (single.shortest ties p).exponent = k)
    (small : (single.shortest ties p).digits * 10 ^ (k + 1) < 2 ^ 53) :
    (ScaledWord.toDouble? ⟨(single.shortest ties p).digits * 10 ^ (k + 1), -1⟩).map
      (Binary32.narrow negative) = some (Binary32.ofMagnitude negative p) := by
  obtain ⟨digits_pos, -, -, -, rounds, -⟩ := shortest_spec pos finite ties
  have word_pos : 0 < (single.shortest ties p).digits * 10 ^ (k + 1) := by positivity
  have value : (((single.shortest ties p).digits * 10 ^ (k + 1) : ℕ) : ℚ) * 10 ^ (-1 : ℤ) =
      (single.shortest ties p).value := by
    rw [Digits.value, whole, zpow_natCast, zpow_neg_one, pow_succ]
    push_cast
    field_simp
  have expressed : double.Expresses (single.shortest ties p).value := by
    have natural : (single.shortest ties p).value =
        ((single.shortest ties p).digits * 10 ^ k : ℕ) := by
      rw [Digits.value, whole, zpow_natCast]
      push_cast
      rfl
    rw [natural]
    refine BinaryFormat.double_expresses_nat (by positivity) (lt_of_le_of_lt ?_ small)
    exact Nat.mul_le_mul_left _ (Nat.pow_le_pow_right (by decide) (Nat.le_succ k))
  obtain ⟨read, -, exact⟩ :=
    ScaledWord.toDouble?_near word_pos small (by decide : (-54 : ℤ) ≤ -1) (by decide)
  rw [value] at exact
  rw [read, Option.map_some, Binary32.narrow_of_roundsTo finite.le
    ((exact (by decide) (by decide) expressed).symm ▸ rounds)]

end

end SurfaceShading
