/-
  Numbers as files write them, and what is read of them.

  Main statements: a finite number in single precision is written as a literal of which the
  same number is read, bit for bit (`binary32?_floatToJson`), and so is a whole number of 32
  bits (`int32?_written`).
-/
import SurfaceShading.Proofs.Number.Literal
import SurfaceShading.Proofs.Number.ReadBack

namespace SurfaceShading

open BinaryFormat (single)

/-! ## Digits -/

/-- The digits of a positive number have no zero in front. -/
theorem toDigits_start {n : ℕ} (pos : 0 < n) :
    ∃ c cs, Nat.toDigits 10 n = c :: cs ∧ c ≠ '0' := by
  induction n using Nat.strong_induction_on with
  | _ n ih =>
    by_cases small : n < 10
    · have others : ∀ n < 10, 0 < n → Nat.digitChar n ≠ '0' := by decide
      exact ⟨Nat.digitChar n, [], Nat.toDigits_of_lt_base small, others n small pos⟩
    · obtain ⟨c, cs, start, some⟩ := ih (n / 10) (by omega) (by omega)
      rw [Nat.toDigits_of_base_le (by decide) (not_lt.1 small), start]
      exact ⟨c, _, rfl, some⟩

theorem natOfDigits_cons (c : Char) (cs : List Char) :
    natOfDigits (c :: cs) = digitValue c * 10 ^ cs.length + natOfDigits cs := by
  have front : natOfDigits [c] = digitValue c := by
    rw [natOfDigits, List.foldl_cons, List.foldl_nil, Nat.mul_zero, Nat.zero_add]
  rw [← front, ← natOfDigits_append]
  rfl

namespace ScaledWord

/-- Digits that fit the word are all taken. -/
theorem takeDigits_eq {cs : List Char} {word : ℕ}
    (fits : word * 10 ^ cs.length + natOfDigits cs < wordLimit) :
    takeDigits word cs = (word * 10 ^ cs.length + natOfDigits cs, []) := by
  induction cs generalizing word with
  | nil => simp [takeDigits, natOfDigits]
  | cons c cs ih =>
    have longer : (10 * word + digitValue c) * 10 ^ cs.length + natOfDigits cs =
        word * 10 ^ (c :: cs).length + natOfDigits (c :: cs) := by
      rw [natOfDigits_cons, List.length_cons, pow_succ]
      ring
    have less : 10 * word + digitValue c < wordLimit := by
      refine lt_of_le_of_lt ?_ (longer ▸ fits)
      exact (Nat.le_mul_of_pos_right _ (by positivity)).trans (Nat.le_add_right _ _)
    rw [takeDigits, if_pos less, ih (longer ▸ fits), longer]

/-- A numeral whose digits fit the word is read by all of them. -/
theorem ofNumeral_eq {n : Numeral} (fits : natOfDigits (n.whole ++ n.fraction) < wordLimit) :
    ofNumeral n = ⟨natOfDigits (n.whole ++ n.fraction), n.exponent - n.fraction.length⟩ := by
  rw [natOfDigits_append] at fits ⊢
  have whole : takeDigits 0 n.whole = (natOfDigits n.whole, []) := by
    rw [takeDigits_eq, Nat.zero_mul, Nat.zero_add]
    rw [Nat.zero_mul, Nat.zero_add]
    refine lt_of_le_of_lt ?_ fits
    exact (Nat.le_mul_of_pos_right _ (by positivity)).trans (Nat.le_add_right _ _)
  rw [ofNumeral, whole]
  dsimp only
  rw [takeDigits_eq fits]
  simp

end ScaledWord

/-! ## Literals of numbers -/

namespace Literal

variable (l : Literal)

/-- A point or an exponent tells a literal from a whole number. -/
theorem wordOfLiteral?_text (marked : l.fraction ≠ [] ∨ l.exponent ≠ none) :
    Json.wordOfLiteral? l.text l.numeral = none := by
  have mark : (l.text.any fun c => c == '.' || c == 'e' || c == 'E') = true := by
    rw [text, List.any_append, List.any_append, List.any_append]
    rcases marked with point | tail
    · rw [fractionText, if_neg point]
      simp
    · obtain ⟨e, some⟩ := Option.ne_none_iff_exists'.1 tail
      rw [some, exponentText]
      simp
  rw [Json.wordOfLiteral?, if_pos mark]

theorem text_of_point (point : l.fraction ≠ []) (none : l.exponent = none) :
    l.text = signText l.negative ++ (l.whole ++ '.' :: l.fraction) := by
  rw [text, fractionText, if_neg point, none, exponentText, List.append_nil]

/-- The number that is read of a literal with a point or an exponent. -/
theorem binary32?_text (marked : l.fraction ≠ [] ∨ l.exponent ≠ none)
    (fits : natOfDigits (l.whole ++ l.fraction) < ScaledWord.wordLimit) :
    (Json.number l.text).binary32? =
      (ScaledWord.toDouble? ⟨natOfDigits (l.whole ++ l.fraction),
        exponentValue l.exponent - l.fraction.length⟩).map (Binary32.narrow l.negative) := by
  rw [Json.binary32?, l.read?_text]
  dsimp only [bind, Option.bind]
  rw [l.wordOfLiteral?_text marked, ScaledWord.ofNumeral_eq fits]
  rfl

end Literal

theorem Binary32.ofMagnitude_magnitude (x : Binary32) :
    ofMagnitude x.negative x.magnitude = x := by
  obtain ⟨bits⟩ := x
  have less := bits.toNat_lt
  unfold ofMagnitude negative magnitude
  simp only [Nat.pow_eq]
  congr 1
  refine UInt32.toNat_inj.1 ?_
  by_cases sign : 2 ^ 31 ≤ bits.toNat
  · rw [decide_eq_true sign, if_pos rfl, UInt32.toNat_ofNat', Nat.mod_eq_of_lt] <;> omega
  · rw [decide_eq_false sign, if_neg Bool.false_ne_true, UInt32.toNat_ofNat',
      Nat.mod_eq_of_lt] <;> omega

/-! ## Numbers in single precision -/

section

variable (x : Binary32)

/-- Zero with its sign. -/
def Literal.zero (negative : Bool) : Literal :=
  ⟨negative, ['0'], ['0'], none, List.forall_mem_singleton.2 rfl, ⟨'0', [], rfl, fun _ => rfl⟩,
    List.forall_mem_singleton.2 rfl, by simp⟩

theorem exists_literal_zero (zero : x.magnitude = 0) :
    ∃ l : Literal, Value.fileStyle.write x = l.text ∧ (Json.number l.text).binary32? = some x := by
  have marked : (Literal.zero x.negative).fraction ≠ [] := List.cons_ne_nil _ _
  have fits : natOfDigits ['0', '0'] < ScaledWord.wordLimit := by decide +kernel
  refine ⟨Literal.zero x.negative, ?_, ?_⟩
  · rw [DecimalStyle.write, if_pos zero]
    rfl
  · rw [Literal.binary32?_text _ (.inl marked) fits]
    conv_rhs => rw [← x.ofMagnitude_magnitude, zero]
    cases x.negative <;> decide +kernel

section

variable {x} (pos : 0 < x.magnitude) (finite : x.magnitude < single.infinity)
include pos finite

/-- A literal of the shortest digits and their exponent. -/
theorem read_digits (l : Literal) (marked : l.fraction ≠ [] ∨ l.exponent ≠ none)
    (sign : l.negative = x.negative)
    (digits : natOfDigits (l.whole ++ l.fraction) =
      (single.shortest Value.fileStyle.ties x.magnitude).digits)
    (exponent : Literal.exponentValue l.exponent - l.fraction.length =
      (single.shortest Value.fileStyle.ties x.magnitude).exponent) :
    (Json.number l.text).binary32? = some x := by
  have less := (shortest_spec pos finite Value.fileStyle.ties).2.1
  rw [l.binary32?_text marked (digits ▸ less.trans (by decide +kernel)), digits, exponent,
    narrow_reading pos finite, sign, Binary32.ofMagnitude_magnitude]

/-- A literal of the whole number of the shortest digits with a zero after the point. -/
theorem read_whole (l : Literal) (marked : l.fraction ≠ [] ∨ l.exponent ≠ none)
    (sign : l.negative = x.negative) {k : ℕ}
    (whole : (single.shortest Value.fileStyle.ties x.magnitude).exponent = k)
    (small : (single.shortest Value.fileStyle.ties x.magnitude).digits * 10 ^ (k + 1) < 2 ^ 53)
    (digits : natOfDigits (l.whole ++ l.fraction) =
      (single.shortest Value.fileStyle.ties x.magnitude).digits * 10 ^ (k + 1))
    (exponent : Literal.exponentValue l.exponent - l.fraction.length = -1) :
    (Json.number l.text).binary32? = some x := by
  rw [l.binary32?_text marked (digits ▸ small.trans (by decide +kernel)), digits, exponent,
    narrow_reading_whole pos finite _ _ whole small, sign, Binary32.ofMagnitude_magnitude]

end

section

variable {d : Digits} (digits_pos : 0 < d.digits)
include digits_pos

/-- A whole number that is laid out with its zeros is small. -/
theorem whole_small {k : ℕ} (whole : d.exponent = k) (low : d.leading ≤ 12) :
    d.digits * 10 ^ (k + 1) < 2 ^ 53 := by
  have less : d.value < 10 ^ (13 : ℤ) :=
    (Digits.leading_bounds digits_pos).2.trans_le (zpow_le_zpow_right₀ (by norm_num) (by omega))
  rw [Digits.value, whole, zpow_natCast] at less
  have less : d.digits * 10 ^ k < 10 ^ 13 := by exact_mod_cast less
  calc d.digits * 10 ^ (k + 1) = d.digits * 10 ^ k * 10 := by rw [pow_succ, mul_assoc]
    _ < 2 ^ 53 := by omega

variable (negative : Bool)

/-- A whole number is laid out with its zeros and one zero after the point. -/
theorem positional_whole {k : ℕ} (whole : d.exponent = k) :
    ∃ l : Literal, Literal.signText negative ++ DecimalStyle.positional d = l.text ∧
      l.negative = negative ∧ l.fraction ≠ [] ∧
      natOfDigits (l.whole ++ l.fraction) = d.digits * 10 ^ (k + 1) ∧
      Literal.exponentValue l.exponent - l.fraction.length = -1 := by
  obtain ⟨c, cs, start, some⟩ := toDigits_start digits_pos
  have fraction : ['0'] ≠ [] := List.cons_ne_nil _ _
  have layout : DecimalStyle.positional d =
      (Nat.toDigits 10 d.digits ++ List.replicate k '0') ++ '.' :: ['0'] := by
    rw [DecimalStyle.positional, if_pos (by omega), whole, Int.toNat_natCast]
  have digits : natOfDigits ((Nat.toDigits 10 d.digits ++ List.replicate k '0') ++ ['0']) =
      d.digits * 10 ^ (k + 1) := by
    rw [List.append_assoc, ← List.replicate_succ', natOfDigits_append, natOfDigits_toDigits,
      natOfDigits_replicate_zero, List.length_replicate, Nat.add_zero]
  refine ⟨⟨negative, Nat.toDigits 10 d.digits ++ List.replicate k '0', ['0'], none, ?_, ?_,
    List.forall_mem_singleton.2 rfl, by simp⟩, ?_, rfl, fraction, digits, rfl⟩
  · intro c mem
    rcases List.mem_append.1 mem with mem | mem
    · exact isDigit_of_mem_toDigits mem
    · rw [List.eq_of_mem_replicate mem]
      rfl
  · rw [start]
    exact ⟨c, _, rfl, fun zero => absurd zero some⟩
  · rw [layout]
    symm
    exact Literal.text_of_point _ fraction rfl

/-- The point stands among the digits. -/
theorem positional_inner (below_one : d.exponent < 0)
    (inner : (-d.exponent).toNat < (Nat.toDigits 10 d.digits).length) :
    ∃ l : Literal, Literal.signText negative ++ DecimalStyle.positional d = l.text ∧
      l.negative = negative ∧ l.fraction ≠ [] ∧
      natOfDigits (l.whole ++ l.fraction) = d.digits ∧
      Literal.exponentValue l.exponent - l.fraction.length = d.exponent := by
  obtain ⟨c, cs, start, some⟩ := toDigits_start digits_pos
  obtain ⟨before, split⟩ :
      ∃ n, (Nat.toDigits 10 d.digits).length - (-d.exponent).toNat = n + 1 :=
    ⟨(Nat.toDigits 10 d.digits).length - (-d.exponent).toNat - 1, by omega⟩
  have layout : DecimalStyle.positional d = (Nat.toDigits 10 d.digits).take (before + 1) ++
      '.' :: (Nat.toDigits 10 d.digits).drop (before + 1) := by
    rw [DecimalStyle.positional, if_neg (by omega)]
    dsimp only
    rw [if_pos inner, split]
  have places : ((Nat.toDigits 10 d.digits).drop (before + 1)).length = (-d.exponent).toNat := by
    rw [List.length_drop]
    omega
  have fraction : (Nat.toDigits 10 d.digits).drop (before + 1) ≠ [] :=
    List.ne_nil_of_length_pos (by omega)
  have digits : natOfDigits ((Nat.toDigits 10 d.digits).take (before + 1) ++
      (Nat.toDigits 10 d.digits).drop (before + 1)) = d.digits := by
    rw [List.take_append_drop, natOfDigits_toDigits]
  refine ⟨⟨negative, (Nat.toDigits 10 d.digits).take (before + 1),
    (Nat.toDigits 10 d.digits).drop (before + 1), none,
    fun c mem => isDigit_of_mem_toDigits (List.mem_of_mem_take mem), ?_,
    fun c mem => isDigit_of_mem_toDigits (List.mem_of_mem_drop mem), by simp⟩, ?_, rfl, fraction,
    digits, ?_⟩
  · rw [start, List.take_succ_cons]
    exact ⟨c, _, rfl, fun zero => absurd zero some⟩
  · rw [layout]
    symm
    exact Literal.text_of_point _ fraction rfl
  · dsimp only [Literal.exponentValue]
    omega

omit digits_pos in
/-- The point stands in front of all digits, and zeros between. -/
theorem positional_below (below_one : d.exponent < 0)
    (below : (Nat.toDigits 10 d.digits).length ≤ (-d.exponent).toNat) :
    ∃ l : Literal, Literal.signText negative ++ DecimalStyle.positional d = l.text ∧
      l.negative = negative ∧ l.fraction ≠ [] ∧
      natOfDigits (l.whole ++ l.fraction) = d.digits ∧
      Literal.exponentValue l.exponent - l.fraction.length = d.exponent := by
  obtain ⟨zeros, gap⟩ := Nat.exists_eq_add_of_le' below
  have layout : DecimalStyle.positional d =
      ['0'] ++ '.' :: (List.replicate zeros '0' ++ Nat.toDigits 10 d.digits) := by
    rw [DecimalStyle.positional, if_neg (by omega)]
    dsimp only
    rw [if_neg (by omega), gap, Nat.add_sub_cancel]
    rfl
  have fraction : List.replicate zeros '0' ++ Nat.toDigits 10 d.digits ≠ [] :=
    List.append_ne_nil_of_right_ne_nil _ Nat.toDigits_ne_nil
  have places : (List.replicate zeros '0' ++ Nat.toDigits 10 d.digits).length =
      (-d.exponent).toNat := by
    rw [List.length_append, List.length_replicate, gap]
  have digits : natOfDigits (['0'] ++ (List.replicate zeros '0' ++ Nat.toDigits 10 d.digits)) =
      d.digits := by
    rw [← List.append_assoc, List.singleton_append, ← List.replicate_succ, natOfDigits_append,
      natOfDigits_replicate_zero, natOfDigits_toDigits, Nat.zero_mul, Nat.zero_add]
  refine ⟨⟨negative, ['0'], List.replicate zeros '0' ++ Nat.toDigits 10 d.digits, none,
    List.forall_mem_singleton.2 rfl, ⟨'0', [], rfl, fun _ => rfl⟩, fun c mem => ?_, by simp⟩, ?_,
    rfl, fraction, digits, ?_⟩
  · rcases List.mem_append.1 mem with mem | mem
    · rw [List.eq_of_mem_replicate mem]
      rfl
    · exact isDigit_of_mem_toDigits mem
  · rw [layout]
    symm
    exact Literal.text_of_point _ fraction rfl
  · dsimp only [Literal.exponentValue]
    omega

/-- One digit stands before the point, and the exponent behind. -/
theorem scientific_literal {style : DecimalStyle} (plus : style.plusSign = true) :
    ∃ l : Literal, Literal.signText negative ++ style.scientific d = l.text ∧
      l.negative = negative ∧ l.exponent ≠ none ∧
      natOfDigits (l.whole ++ l.fraction) = d.digits ∧
      Literal.exponentValue l.exponent - l.fraction.length = d.exponent := by
  obtain ⟨c, cs, start, some⟩ := toDigits_start digits_pos
  have digit : ∀ c' ∈ c :: cs, c'.isDigit = true := fun c' mem =>
    isDigit_of_mem_toDigits (start ▸ mem)
  have leading : d.leading = cs.length + d.exponent := by
    rw [Digits.leading, Digits.count, start, List.length_cons]
    omega
  have mark : (if d.leading < 0 then ['-'] else if style.plusSign = true then ['+'] else []) =
      [if decide (d.leading < 0) = true then '-' else '+'] := by
    rw [if_pos plus]
    by_cases below : d.leading < 0
    · rw [if_pos below, if_pos (decide_eq_true below)]
    · rw [if_neg below, if_neg (by simpa using below)]
  have layout : style.scientific d = [c] ++ (Literal.fractionText cs ++ Literal.exponentText
      (.some (decide (d.leading < 0), Nat.toDigits 10 d.leading.natAbs))) := by
    rw [DecimalStyle.scientific, start, mark]
    cases cs with
    | nil => rfl
    | cons c' cs' =>
      rw [Literal.fractionText, if_neg (List.cons_ne_nil c' cs')]
      exact List.append_assoc (c :: '.' :: c' :: cs') ['e', _] _
  have value : Literal.exponentValue
      (.some (decide (d.leading < 0), Nat.toDigits 10 d.leading.natAbs)) = d.leading := by
    rw [Literal.exponentValue, natOfDigits_toDigits]
    by_cases below : d.leading < 0
    · rw [if_pos (decide_eq_true below)]
      omega
    · rw [if_neg (by simpa using below)]
      omega
  have digits : natOfDigits ([c] ++ cs) = d.digits := by
    rw [List.singleton_append, ← start, natOfDigits_toDigits]
  refine ⟨⟨negative, [c], cs, .some (decide (d.leading < 0), Nat.toDigits 10 d.leading.natAbs),
    fun c' mem => digit c' (List.mem_cons.2 (.inl (List.mem_singleton.1 mem))),
    ⟨c, [], rfl, fun zero => absurd zero some⟩,
    fun c' mem => digit c' (List.mem_cons_of_mem c mem), ?_⟩, ?_, rfl, Option.some_ne_none _,
    digits, ?_⟩
  · rintro _ ⟨⟩
    exact ⟨Nat.toDigits_ne_nil, fun _ => isDigit_of_mem_toDigits⟩
  · rw [layout]
    rfl
  · refine Eq.trans (congrArg (· - (cs.length : ℤ)) value) ?_
    omega

end

/-- Every finite number is written as a literal of which it is read. -/
theorem exists_literal {x : Binary32} (finite : x.isFinite = true) :
    ∃ l : Literal, Value.fileStyle.write x = l.text ∧ (Json.number l.text).binary32? = some x := by
  by_cases zero : x.magnitude = 0
  · exact exists_literal_zero x zero
  · have pos : 0 < x.magnitude := Nat.pos_of_ne_zero zero
    have below : x.magnitude < single.infinity := of_decide_eq_true finite
    have digits_pos := (shortest_spec pos below Value.fileStyle.ties).1
    have read := read_digits pos below
    rw [DecimalStyle.write, if_neg zero]
    dsimp only
    split
    · next range =>
      by_cases whole : 0 ≤ (single.shortest Value.fileStyle.ties x.magnitude).exponent
      · obtain ⟨k, whole⟩ := Int.eq_ofNat_of_zero_le whole
        obtain ⟨l, text, sign, point, digits, exponent⟩ :=
          positional_whole digits_pos x.negative whole
        exact ⟨l, text, read_whole pos below l (.inl point) sign whole
          (whole_small digits_pos whole range.2) digits exponent⟩
      · by_cases inner : (-(single.shortest Value.fileStyle.ties x.magnitude).exponent).toNat <
            (Nat.toDigits 10 (single.shortest Value.fileStyle.ties x.magnitude).digits).length
        · obtain ⟨l, text, sign, point, digits, exponent⟩ :=
            positional_inner digits_pos x.negative (not_le.1 whole) inner
          exact ⟨l, text, read l (.inl point) sign digits exponent⟩
        · obtain ⟨l, text, sign, point, digits, exponent⟩ :=
            positional_below x.negative (not_le.1 whole) (not_lt.1 inner)
          exact ⟨l, text, read l (.inl point) sign digits exponent⟩
    · have plus : Value.fileStyle.plusSign = true := rfl
      obtain ⟨l, text, sign, tail, digits, exponent⟩ :=
        scientific_literal digits_pos x.negative plus
      exact ⟨l, text, read l (.inr tail) sign digits exponent⟩

end

/-! ## Whole numbers -/

theorem toString_int (z : ℤ) :
    (toString z).toList = Literal.signText (decide (z < 0)) ++ Nat.toDigits 10 z.natAbs := by
  cases z with
  | ofNat n => exact Nat.toList_repr
  | negSucc n =>
    have text : toString (Int.negSucc n) = "-" ++ Nat.repr (n + 1) := rfl
    rw [text, String.toList_append, Nat.toList_repr, decide_eq_true (Int.negSucc_lt_zero n)]
    rfl

/-- Digits without a point and an exponent are a whole number. -/
theorem Literal.wordOfLiteral?_whole (l : Literal) (point : l.fraction = [])
    (tail : l.exponent = none) (small : natOfDigits l.whole < 2 ^ 63)
    (sign : l.negative = true → 0 < natOfDigits l.whole) :
    Json.wordOfLiteral? l.text l.numeral =
      some (if l.negative then -(natOfDigits l.whole : ℤ) else natOfDigits l.whole) := by
  have text : l.text = signText l.negative ++ l.whole := by
    rw [Literal.text, point, tail]
    exact congrArg _ (List.append_nil _)
  have unmarked : ¬(l.text.any fun c => c == '.' || c == 'e' || c == 'E') = true := by
    rw [text, List.any_append, Bool.or_eq_true, not_or]
    constructor
    · cases l.negative <;> decide
    · rw [List.any_eq_true]
      rintro ⟨c, mem, mark⟩
      have digit := l.whole_digits c mem
      simp only [Bool.or_eq_true, beq_iff_eq] at mark
      rcases mark with (rfl | rfl) | rfl <;> cases digit
  have whole : l.numeral.whole = l.whole := rfl
  rw [Json.wordOfLiteral?, if_neg unmarked, whole]
  by_cases negative : l.numeral.negative = true
  · have low : Int64.minValue.toInt ≤ -(natOfDigits l.whole : ℤ) := by
      have : Int64.minValue.toInt = -2 ^ 63 := rfl
      omega
    rw [if_pos negative]
    exact (if_pos ⟨sign negative, low⟩).trans (congrArg some (if_pos negative).symm)
  · rw [if_neg negative]
    exact (if_pos (small.trans (by decide))).trans (congrArg some (if_neg negative).symm)

/-- Every whole number of 32 bits is written as a literal of which it is read. -/
theorem exists_literal_int (n : Int32) :
    ∃ l : Literal, (toString n.toInt).toList = l.text ∧ (Json.number l.text).int32? = some n := by
  obtain ⟨c, cs, start, zero⟩ : ∃ c cs, Nat.toDigits 10 n.toInt.natAbs = c :: cs ∧
      (c = '0' → cs = []) := by
    rcases Nat.eq_zero_or_pos n.toInt.natAbs with zero | pos
    · exact ⟨'0', [], by rw [zero]; rfl, fun _ => rfl⟩
    · obtain ⟨c, cs, start, some⟩ := toDigits_start pos
      exact ⟨c, cs, start, fun zero => absurd zero some⟩
  have low := n.le_toInt
  have high := n.toInt_lt
  let l : Literal := ⟨decide (n.toInt < 0), Nat.toDigits 10 n.toInt.natAbs, [], none,
    fun _ => isDigit_of_mem_toDigits, ⟨c, cs, start, zero⟩, by simp, by simp⟩
  have digits : natOfDigits l.whole = n.toInt.natAbs := natOfDigits_toDigits _
  have word : Json.wordOfLiteral? l.text l.numeral = some n.toInt := by
    rw [l.wordOfLiteral?_whole rfl rfl (by omega) fun negative => by
      have := of_decide_eq_true negative
      omega, digits]
    by_cases negative : n.toInt < 0
    · rw [if_pos (decide_eq_true negative)]
      congr 1
      omega
    · rw [if_neg (of_decide_eq_true.mt negative)]
      congr 1
      omega
  refine ⟨l, ?_, ?_⟩
  · rw [toString_int]
    exact congrArg _ (List.append_nil _).symm
  · rw [Json.int32?, l.read?_text]
    dsimp only [bind, Option.bind]
    rw [word]
    dsimp only
    rw [if_pos ⟨low, Int.le_sub_one_of_lt high⟩, Int32.ofInt_toInt]

end SurfaceShading
