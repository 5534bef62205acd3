/-
  Decimal numbers of few digits keep away from the midpoints of single precision.

  A midpoint is `m * 2 ^ q` with `m` odd, and a number of few digits is `w * 10 ^ e`. How near
  the two are is how near the fraction `w / m` is to `2 ^ q / 10 ^ e`. Two fractions with the
  denominators `b` and `m` differ by `1 / (b * m)` at least, so one fraction `a / b` that is very
  near to the ratio keeps all others away from it (`far_of_separates`). Euclid's algorithm finds
  such an `a / b` for every pair of exponents, and where `w / m` is `a / b` itself the two
  numbers are compared directly. Main statement: what double precision reads of `w * 10 ^ e`
  stands on the same side of the midpoint (`reading_sameSide`).
-/
import Mathlib
import SurfaceShading.Proofs.Number.ScaledWord

namespace SurfaceShading

open BinaryFormat (double)

namespace Midpoints

/-- Words from here on have a grid that is finer than the numbers of single precision. -/
def wordLimit : ℕ := 16777218

/-- Midpoints have mantissas below this. -/
def mantissaLimit : ℕ := 33554432

/-- A reading errs by less than one part in this many. -/
def precision : ℕ := 2251799813685248

/-! ## Keeping fractions away -/

/-- Whether a fraction keeps the others away from `num / den`. -/
def separates (num den a b : ℕ) : Bool :=
  Nat.blt (precision * (mantissaLimit * Nat.dist (num * b) (a * den)) + wordLimit * (b * den))
    (precision * den)

theorem cast_dist (x y : ℕ) : (Nat.dist x y : ℤ) = |(x : ℤ) - y| := by
  rcases le_total x y with le | le
  · rw [Nat.dist_eq_sub_of_le le, abs_of_nonpos (by omega)]
    omega
  · rw [Nat.dist_eq_sub_of_le_right le, abs_of_nonneg (by omega)]
    omega

section

variable {num den a b w m : ℕ}

/-- The part of a word by which it is farther from a midpoint than a reading errs. -/
def Far (num den w m : ℕ) : Prop := w * den < precision * Nat.dist (w * den) (m * num)

theorem far_iff : Far num den w m ↔ (w * den : ℤ) < precision * |(w * den : ℤ) - m * num| := by
  have cast := cast_dist (w * den) (m * num)
  push_cast at cast
  rw [Far, ← cast]
  exact_mod_cast Iff.rfl

theorem far_of_separates (kept : separates num den a b = true) (w_lt : w < wordLimit)
    (m_lt : m < mantissaLimit) (other : w * b ≠ a * m) : Far num den w m := by
  have kept : (precision : ℤ) * (mantissaLimit * |(num * b : ℤ) - a * den|) +
      wordLimit * (b * den) < precision * den := by
    have cast := cast_dist (num * b) (a * den)
    push_cast at cast
    rw [← cast]
    exact_mod_cast Nat.blt_eq.mp kept
  have apart : (1 : ℤ) ≤ |(w : ℤ) * b - a * m| :=
    Int.one_le_abs (sub_ne_zero.2 (by exact_mod_cast other))
  have mixed : (den : ℤ) * |(w : ℤ) * b - a * m| ≤
      b * |(w * den : ℤ) - m * num| + m * |(num * b : ℤ) - a * den| := by
    have split : (den : ℤ) * (w * b - a * m) =
        b * (w * den - m * num) + m * (num * b - a * den) := by ring
    calc (den : ℤ) * |(w : ℤ) * b - a * m|
        = |(b * (w * den - m * num) + m * (num * b - a * den) : ℤ)| := by
          rw [← split, abs_mul, Nat.abs_cast]
      _ ≤ |(b * (w * den - m * num) : ℤ)| + |(m * (num * b - a * den) : ℤ)| := abs_add_le _ _
      _ = b * |(w * den : ℤ) - m * num| + m * |(num * b : ℤ) - a * den| := by
          rw [abs_mul, abs_mul, Nat.abs_cast, Nat.abs_cast]
  have m_le := mul_le_mul_of_nonneg_right (by exact_mod_cast m_lt.le : (m : ℤ) ≤ mantissaLimit)
    (abs_nonneg ((num * b : ℤ) - a * den))
  have den_le : (den : ℤ) ≤ den * |(w : ℤ) * b - a * m| :=
    le_mul_of_one_le_right (by positivity) apart
  have w_le : (w : ℤ) * (b * den) ≤ wordLimit * (b * den) :=
    mul_le_mul_of_nonneg_right (by exact_mod_cast w_lt.le) (by positivity)
  have chain := mul_le_mul_of_nonneg_left
    ((den_le.trans mixed).trans (add_le_add_right m_le _)) (Int.natCast_nonneg precision)
  rw [far_iff]
  refine lt_of_mul_lt_mul_left ?_ (Int.natCast_nonneg b)
  linarith

/-- Where the two fractions are equal, so is the relative distance. -/
theorem far_of_same (b_pos : 0 < b) (m_pos : 0 < m) (same : w * b = a * m)
    (wide : Far num den a b) : Far num den w m := by
  have wide : (a * den : ℤ) < precision * |(a * den : ℤ) - b * num| := far_iff.1 wide
  have same : (w * b : ℤ) = a * m := by exact_mod_cast same
  have scaled : (b : ℤ) * (w * den - m * num) = m * (a * den - b * num) := by
    linear_combination (den : ℤ) * same
  have b_pos : (0 : ℤ) < b := by exact_mod_cast b_pos
  have m_pos : (0 : ℤ) < m := by exact_mod_cast m_pos
  rw [far_iff]
  refine lt_of_mul_lt_mul_left ?_ b_pos.le
  calc (b : ℤ) * (w * den) = m * (a * den) := by linear_combination (den : ℤ) * same
    _ < m * (precision * |(a * den : ℤ) - b * num|) := mul_lt_mul_of_pos_left wide m_pos
    _ = precision * |(m * (a * den - b * num) : ℤ)| := by rw [abs_mul, Nat.abs_cast]; ring
    _ = b * (precision * |(w * den : ℤ) - m * num|) := by
        rw [← scaled, abs_mul, Nat.abs_cast]
        ring

end

/-! ## All pairs of exponents -/

/-- The first convergent of `num / den` that keeps the other fractions away, from the one
`c / d` on, which follows `a / b`. The quotient `x / y` gives the next one. -/
def keeper? (num den : ℕ) : ℕ → ℕ → ℕ → ℕ → ℕ → ℕ → ℕ → Option (ℕ × ℕ)
  | 0, _, _, _, _, _, _ => none
  | rounds + 1, x, y, a, b, c, d =>
    if separates num den c d then some (c, d)
    else if y = 0 then none
    else keeper? num den rounds y (x % y) c d (x / y * c + a) (x / y * d + b)

/-- The ratio `2 ^ q / 10 ^ e`. -/
def ratio (e q : ℤ) : ℕ × ℕ :=
  (Nat.pow 2 q.toNat * Nat.pow 10 (-e).toNat, Nat.pow 10 e.toNat * Nat.pow 2 (-q).toNat)

/-- Whether a word can be near a midpoint. -/
def meet (num den : ℕ) : Bool := Nat.ble num (2 * den) && Nat.ble den (67108864 * num)

/-- Whether a number and what is read of it are on one side of a midpoint. -/
def readsAside (e q : ℤ) (w m : ℕ) : Bool :=
  let (num, den) := ratio e q
  let midpoint := m * Nat.pow 2 (q + double.unitBits).toNat
  let read := double.units (ScaledWord.reading w e)
  w * den < m * num && read < midpoint || m * num < w * den && midpoint < read

/-- Whether a fraction is no word over a midpoint, or if it is, the word is the midpoint and a
small power of ten, or far from it, or what is read of it stands on its side. -/
def harmless (e q : ℤ) (a b : ℕ) : Bool :=
  let (num, den) := ratio e q
  a * den == b * num && Nat.ble e.natAbs 22 ||
    Nat.blt (a * den) (precision * Nat.dist (a * den) (b * num)) ||
    Nat.gcd a b == 1 && (wordLimit ≤ a || mantissaLimit ≤ b || b % 2 == 0 ||
      (wordLimit ≤ 2 * a || mantissaLimit ≤ 2 * b) && readsAside e q a b)

/-- Whether one fraction keeps all others away and does no harm itself. -/
def settled (e q : ℤ) : Bool :=
  let (num, den) := ratio e q
  if meet num den then
    match keeper? num den 40 num den 0 1 1 0 with
    | some (a, b) => separates num den a b && 0 < b && harmless e q a b
    | none => false
  else true

/-- The search succeeds for all exponents of numbers in single precision. -/
theorem all_settled : (List.range 84).all (fun i => (List.range 255).all fun j =>
    settled ((i : ℤ) - 45) ((j : ℤ) - 151)) = true := by
  decide +kernel

section

variable {e q : ℤ} {w m : ℕ}

/-- A word and a mantissa whose fraction does no harm. -/
theorem outcome_of_harmless {a b : ℕ} (is : harmless e q a b = true) (w_pos : 0 < w)
    (w_lt : w < wordLimit) (m_lt : m < mantissaLimit) (odd : m % 2 = 1) (b_pos : 0 < b)
    (same : w * b = a * m) :
    (w * (ratio e q).2 = m * (ratio e q).1 ∧ e.natAbs ≤ 22) ∨
      Far (ratio e q).1 (ratio e q).2 w m ∨ readsAside e q w m = true := by
  have m_pos : 0 < m := Nat.pos_of_ne_zero fun zero => by rw [zero] at odd; cases odd
  unfold harmless at is
  simp only [Bool.or_eq_true, Bool.and_eq_true, beq_iff_eq, Nat.ble_eq, Nat.blt_eq,
    decide_eq_true_eq] at is
  rcases is with (⟨exact, small⟩ | wide) | ⟨coprime, rest⟩
  · refine .inl ⟨?_, small⟩
    refine Nat.eq_of_mul_eq_mul_left b_pos ?_
    calc b * (w * (ratio e q).2) = w * b * (ratio e q).2 := by ring
      _ = m * (a * (ratio e q).2) := by rw [same]; ring
      _ = b * (m * (ratio e q).1) := by rw [exact]; ring
  · exact .inr (.inl (far_of_same b_pos m_pos same wide))
  · -- The fraction is in lowest terms, so the word and the mantissa are multiples of its parts.
    obtain ⟨c, rfl⟩ : a ∣ w := Nat.Coprime.dvd_of_dvd_mul_right coprime ⟨m, same⟩
    have a_pos : 0 < a := Nat.pos_of_mul_pos_right w_pos
    have c_pos : 0 < c := Nat.pos_of_mul_pos_left w_pos
    obtain rfl : b * c = m := Nat.eq_of_mul_eq_mul_left a_pos (by rw [← same]; ring)
    rcases rest with ((long | long) | even) | ⟨once, aside⟩
    · exact absurd (long.trans (Nat.le_mul_of_pos_right a c_pos)) w_lt.not_ge
    · exact absurd (long.trans (Nat.le_mul_of_pos_right b c_pos)) m_lt.not_ge
    · rw [Nat.mul_mod, even, Nat.zero_mul] at odd
      cases odd
    · have single : c = 1 := by
        refine le_antisymm (Nat.lt_succ_iff.1 (lt_of_not_ge fun two => ?_)) c_pos
        rcases once with long | long
        · exact absurd (long.trans (mul_comm 2 a ▸ Nat.mul_le_mul_left a two)) w_lt.not_ge
        · exact absurd (long.trans (mul_comm 2 b ▸ Nat.mul_le_mul_left b two)) m_lt.not_ge
      rw [single, Nat.mul_one, Nat.mul_one]
      exact .inr (.inr aside)

theorem outcome (is : settled e q = true) (meets : meet (ratio e q).1 (ratio e q).2 = true)
    (w_pos : 0 < w) (w_lt : w < wordLimit) (m_lt : m < mantissaLimit) (odd : m % 2 = 1) :
    (w * (ratio e q).2 = m * (ratio e q).1 ∧ e.natAbs ≤ 22) ∨
      Far (ratio e q).1 (ratio e q).2 w m ∨ readsAside e q w m = true := by
  unfold settled at is
  dsimp only at is
  rw [if_pos meets] at is
  split at is
  · next a b _ =>
    simp only [Bool.and_eq_true, decide_eq_true_eq] at is
    obtain ⟨⟨kept, b_pos⟩, rest⟩ := is
    by_cases same : w * b = a * m
    · exact outcome_of_harmless rest w_pos w_lt m_lt odd b_pos same
    · exact .inr (.inl (far_of_separates kept w_lt m_lt same))
  · cases is

end

/-! ## Rational numbers -/

theorem ratio_pos (e q : ℤ) : 0 < (ratio e q).1 ∧ 0 < (ratio e q).2 := by
  unfold ratio
  simp only [Nat.pow_eq]
  constructor <;> positivity

theorem ratio_eq (e q : ℤ) : ((ratio e q).1 : ℚ) / (ratio e q).2 = 2 ^ q / 10 ^ e := by
  have split (x : ℚ) (x_pos : 0 < x) (n : ℤ) : x ^ n = x ^ n.toNat / x ^ (-n).toNat := by
    rw [← zpow_natCast, ← zpow_natCast, ← zpow_sub₀ x_pos.ne']
    congr 1
    omega
  rw [split 2 (by norm_num), split 10 (by norm_num)]
  unfold ratio
  simp only [Nat.pow_eq]
  push_cast
  field_simp

theorem meet_of_le {e q : ℤ} (low : (2 : ℚ) ^ q ≤ 2 * 10 ^ e)
    (high : (10 : ℚ) ^ e ≤ 2 ^ 26 * 2 ^ q) : meet (ratio e q).1 (ratio e q).2 = true := by
  have den_pos : (0 : ℚ) < (ratio e q).2 := by exact_mod_cast (ratio_pos e q).2
  have power_pos : (0 : ℚ) < 10 ^ e := by positivity
  have two : (2 : ℚ) ^ q = (ratio e q).1 / (ratio e q).2 * 10 ^ e := by
    rw [ratio_eq, div_mul_cancel₀ _ power_pos.ne']
  rw [two] at low high
  unfold meet
  simp only [Bool.and_eq_true, Nat.ble_eq]
  constructor
  · have := le_of_mul_le_mul_right low power_pos
    rw [div_le_iff₀ den_pos] at this
    exact_mod_cast this
  · have : (ratio e q).2 ≤ (2 : ℚ) ^ 26 * (ratio e q).1 := by
      rw [← mul_assoc, ← mul_div_assoc] at high
      have one_le := (one_le_of_le_mul_right₀ power_pos high)
      rwa [one_le_div₀ den_pos] at one_le
    norm_num at this
    exact_mod_cast this

theorem settled_of_mem {e q : ℤ} (e_low : -45 ≤ e) (e_high : e ≤ 38) (q_low : -151 ≤ q)
    (q_high : q ≤ 103) : settled e q = true := by
  have row := List.all_eq_true.1 all_settled (e + 45).toNat (List.mem_range.2 (by omega))
  have cell := List.all_eq_true.1 row (q + 151).toNat (List.mem_range.2 (by omega))
  rwa [Int.toNat_of_nonneg (by omega), Int.toNat_of_nonneg (by omega), add_sub_cancel_right,
    add_sub_cancel_right] at cell

end Midpoints

/-- Two numbers stand to a third in the same way. -/
structure SameSide (x y middle : ℚ) : Prop where
  below : x < middle → y < middle
  above : middle < x → middle < y
  on : x = middle → y = middle

theorem sameSide_of_far {x y middle : ℚ} (near : |y - x| ≤ x / 2 ^ 51)
    (far : x / 2 ^ 51 < |x - middle|) : SameSide x y middle := by
  obtain ⟨low, high⟩ := abs_le.1 near
  refine ⟨fun below => ?_, fun above => ?_, fun same => ?_⟩
  · rw [abs_of_neg (by linarith)] at far
    linarith
  · rw [abs_of_pos (by linarith)] at far
    linarith
  · rw [same, sub_self, abs_zero] at far
    rw [same] at near
    linarith [abs_nonneg (y - middle)]

/-- A power of two in the units of double precision. -/
theorem two_zpow_eq {q : ℤ} (low : -151 ≤ q) :
    (2 : ℚ) ^ q = 2 ^ (q + double.unitBits).toNat / 2 ^ double.unitBits := by
  have units : (double.unitBits : ℤ) = 1074 := rfl
  rw [← zpow_natCast, ← zpow_natCast, ← zpow_sub₀ (by norm_num),
    Int.toNat_of_nonneg (by omega), add_sub_cancel_right]

open Midpoints in
/-- What is read of a number of few digits stands on its side of a midpoint. -/
theorem reading_sameSide {e q : ℤ} {w m : ℕ} (e_low : -45 ≤ e) (e_high : e ≤ 38)
    (q_low : -151 ≤ q) (q_high : q ≤ 103) (low : (2 : ℚ) ^ q ≤ 2 * 10 ^ e)
    (high : (10 : ℚ) ^ e ≤ 2 ^ 26 * 2 ^ q) (w_pos : 0 < w) (w_lt : w < wordLimit)
    (m_lt : m < mantissaLimit) (odd : m % 2 = 1) :
    SameSide (w * 10 ^ e) (double.magnitude (ScaledWord.reading w e)) (m * 2 ^ q) := by
  have word_lt : w < 2 ^ 53 := w_lt.trans (by decide)
  have m_pos : 0 < m := Nat.pos_of_ne_zero fun zero => by rw [zero] at odd; cases odd
  obtain ⟨-, near, exact⟩ :=
    ScaledWord.toDouble?_near w_pos word_lt (by omega : -54 ≤ e) (by omega)
  have den_pos : (0 : ℚ) < (ratio e q).2 := by exact_mod_cast (ratio_pos e q).2
  have power_pos : (0 : ℚ) < 10 ^ e := by positivity
  -- Both numbers in the unit in which the search compares them.
  obtain ⟨unit, unit_pos, number, middle⟩ : ∃ unit : ℚ, 0 < unit ∧
      (w * 10 ^ e : ℚ) = w * (ratio e q).2 * unit ∧
        (m * 2 ^ q : ℚ) = m * (ratio e q).1 * unit := by
    have two : (2 : ℚ) ^ q = (ratio e q).1 / (ratio e q).2 * 10 ^ e := by
      rw [ratio_eq, div_mul_cancel₀ _ power_pos.ne']
    refine ⟨10 ^ e / (ratio e q).2, div_pos power_pos den_pos, ?_, ?_⟩
    · field_simp
    · rw [two]
      ring
  rcases outcome (settled_of_mem e_low e_high q_low q_high) (meet_of_le low high) w_pos w_lt m_lt
    odd with ⟨same, small⟩ | far | aside
  · have equal : (w * 10 ^ e : ℚ) = m * 2 ^ q := by
      rw [number, middle]
      congr 1
      exact_mod_cast same
    have expressed : double.Expresses (w * 10 ^ e) := by
      refine BinaryFormat.double_expresses (t := (q + double.unitBits).toNat) m_pos
        (m_lt.trans (by decide)) ?_ ?_
      · have units : (double.unitBits : ℤ) = 1074 := rfl
        omega
      · rw [equal, two_zpow_eq q_low, mul_div_assoc]
    have read := exact (by omega) (by omega) expressed
    rw [read, equal]
    exact ⟨id, id, id⟩
  · refine sameSide_of_far near ?_
    have apart : (w * (ratio e q).2 : ℚ) <
        2 ^ 51 * |(w * (ratio e q).2 : ℚ) - m * (ratio e q).1| := by
      have := far_iff.1 far
      norm_num [precision] at this ⊢
      exact_mod_cast this
    rw [number, middle, ← sub_mul, abs_mul, abs_of_pos unit_pos, div_lt_iff₀ (by positivity)]
    calc (w * (ratio e q).2 : ℚ) * unit
        < 2 ^ 51 * |(w * (ratio e q).2 : ℚ) - m * (ratio e q).1| * unit :=
          mul_lt_mul_of_pos_right apart unit_pos
      _ = |(w * (ratio e q).2 : ℚ) - m * (ratio e q).1| * unit * 2 ^ 51 := by ring
  · unfold readsAside at aside
    simp only [Bool.or_eq_true, Bool.and_eq_true, decide_eq_true_eq, Nat.pow_eq] at aside
    have units_pos : (0 : ℚ) < 2 ^ double.unitBits := by positivity
    have read : (m * 2 ^ q : ℚ) =
        (m * 2 ^ (q + double.unitBits).toNat : ℕ) / 2 ^ double.unitBits := by
      rw [two_zpow_eq q_low, ← mul_div_assoc]
      push_cast
      rfl
    rcases aside with ⟨less, read_less⟩ | ⟨more, read_more⟩
    · have below : (w * 10 ^ e : ℚ) < m * 2 ^ q := by
        rw [number, middle]
        exact mul_lt_mul_of_pos_right (by exact_mod_cast less) unit_pos
      have read_below : double.magnitude (ScaledWord.reading w e) < m * 2 ^ q := by
        rw [read, BinaryFormat.magnitude]
        exact div_lt_div_of_pos_right (by exact_mod_cast read_less) units_pos
      exact ⟨fun _ => read_below, fun above => absurd above below.not_gt,
        fun same => absurd same below.ne⟩
    · have above : (m * 2 ^ q : ℚ) < w * 10 ^ e := by
        rw [number, middle]
        exact mul_lt_mul_of_pos_right (by exact_mod_cast more) unit_pos
      have read_above : (m * 2 ^ q : ℚ) < double.magnitude (ScaledWord.reading w e) := by
        rw [read, BinaryFormat.magnitude]
        exact div_lt_div_of_pos_right (by exact_mod_cast read_more) units_pos
      exact ⟨fun below => absurd below above.not_gt, fun _ => read_above,
        fun same => absurd same above.ne'⟩

end SurfaceShading
