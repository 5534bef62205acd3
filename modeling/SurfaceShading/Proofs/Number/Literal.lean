/-
  Literals of numbers: a sign, whole digits without leading zeros, digits after a point, and an
  exponent with its sign.

  Main statements: a literal is read as its parts (`read?_text`), and it is the whole token of a
  JSON text in which nothing follows that could be of the number (`numberSpan?_text`).
-/
import Mathlib.Data.List.TakeWhile
import SurfaceShading.Json.Token
import SurfaceShading.Material.File
import SurfaceShading.Proofs.Number.Digits

namespace SurfaceShading

/-- The parts of a literal. -/
structure Literal where
  negative : Bool
  whole : List Char
  fraction : List Char
  /-- Whether the exponent is negative, and its digits. -/
  exponent : Option (Bool × List Char)
  whole_digits : ∀ c ∈ whole, c.isDigit = true
  whole_start : ∃ c cs, whole = c :: cs ∧ (c = '0' → cs = [])
  fraction_digits : ∀ c ∈ fraction, c.isDigit = true
  exponent_digits : ∀ e ∈ exponent, e.2 ≠ [] ∧ ∀ c ∈ e.2, c.isDigit = true

/-- Whether what follows a number cannot be of it. -/
def Stops (rest : List Char) : Prop :=
  ∀ c ∈ rest.head?, c.isDigit = false ∧ c ≠ '.' ∧ c ≠ 'e' ∧ c ≠ 'E'

namespace Literal

def signText (negative : Bool) : List Char := if negative then ['-'] else []

def fractionText (fraction : List Char) : List Char :=
  if fraction = [] then [] else '.' :: fraction

def exponentText : Option (Bool × List Char) → List Char
  | none => []
  | some (negative, ds) => 'e' :: (if negative then '-' else '+') :: ds

/-- The text of a literal. -/
def text (l : Literal) : List Char :=
  signText l.negative ++ (l.whole ++ (fractionText l.fraction ++ exponentText l.exponent))

def exponentValue : Option (Bool × List Char) → Int
  | none => 0
  | some (negative, ds) => if negative then -(natOfDigits ds : Int) else natOfDigits ds

/-- The number that a literal writes. -/
def numeral (l : Literal) : Numeral := ⟨l.negative, l.whole, l.fraction, exponentValue l.exponent⟩

theorem spanDigits_append {ds rest : List Char} (digits : ∀ c ∈ ds, c.isDigit = true)
    (stop : ∀ c ∈ rest.head?, c.isDigit = false) : spanDigits (ds ++ rest) = (ds, rest) := by
  have none : rest.takeWhile Char.isDigit = [] ∧ rest.dropWhile Char.isDigit = rest := by
    cases rest with
    | nil => exact ⟨rfl, rfl⟩
    | cons c cs =>
      have other := stop c rfl
      exact ⟨List.takeWhile_cons_of_neg (by simp [other]),
        List.dropWhile_cons_of_neg (by simp [other])⟩
  rw [spanDigits, List.takeWhile_append_of_pos digits, List.dropWhile_append_of_pos digits, none.1,
    none.2, List.append_nil]

theorem not_digit_exponent (e : Option (Bool × List Char)) {rest : List Char}
    (stops : Stops rest) : ∀ c ∈ (exponentText e ++ rest).head?, c.isDigit = false := by
  cases e with
  | none => exact fun c mem => (stops c mem).1
  | some e =>
    rintro _ ⟨⟩
    rfl

theorem not_digit_fraction (fraction : List Char) (e : Option (Bool × List Char))
    {rest : List Char} (stops : Stops rest) :
    ∀ c ∈ (fractionText fraction ++ (exponentText e ++ rest)).head?, c.isDigit = false := by
  unfold fractionText
  split
  · exact not_digit_exponent e stops
  · rintro _ ⟨⟩
    rfl

theorem stops_nil : Stops [] := by
  rintro _ ⟨⟩

/-! ## The parts -/

section

variable {e : Option (Bool × List Char)}
  (digits : ∀ d ∈ e, d.2 ≠ [] ∧ ∀ c ∈ d.2, c.isDigit = true)
include digits

theorem readExponent?_text :
    Numeral.readExponent? (exponentText e) = some (exponentValue e) := by
  cases e with
  | none => rfl
  | some e =>
    obtain ⟨negative, ds⟩ := e
    obtain ⟨some, all⟩ := digits _ rfl
    have sign : spanSign ((if negative then '-' else '+') :: ds) = (negative, ds) := by
      cases negative <;> rfl
    have bad : ¬(ds.isEmpty = true ∨ ¬ds.all Char.isDigit = true) := by
      simpa [some] using all
    rw [exponentText, Numeral.readExponent?, if_pos (.inl rfl), sign]
    exact if_neg bad

theorem exponentSpan?_text {rest : List Char} (stops : Stops rest) :
    Json.exponentSpan? (exponentText e ++ rest) = some (exponentText e, rest) := by
  cases e with
  | none =>
    cases rest with
    | nil => rfl
    | cons c cs =>
      obtain ⟨-, -, lower, upper⟩ := stops c rfl
      exact if_neg (not_or.2 ⟨lower, upper⟩)
  | some e =>
    obtain ⟨negative, ds⟩ := e
    obtain ⟨some, all⟩ := digits _ rfl
    have sign : Json.signSpan ((if negative then '-' else '+') :: (ds ++ rest)) =
        ([if negative then '-' else '+'], ds ++ rest) := by
      cases negative <;> rfl
    rw [exponentText, List.cons_append, List.cons_append, Json.exponentSpan?, if_pos (.inl rfl),
      sign]
    dsimp only
    rw [spanDigits_append all fun c mem => (stops c mem).1]
    exact if_neg (by simpa using some)

end

variable (l : Literal)

theorem exists_start : ∃ c cs, l.text = c :: cs ∧ (c = '-' ∨ c.isDigit = true) := by
  obtain ⟨c, cs, start, -⟩ := l.whole_start
  have digit : c.isDigit = true := l.whole_digits c (start ▸ List.mem_cons_self)
  rw [text, start]
  cases l.negative with
  | true => exact ⟨'-', _, rfl, .inl rfl⟩
  | false => exact ⟨c, _, rfl, .inr digit⟩

/-- A literal with nothing after it is a number with its parts. -/
theorem read?_text : Numeral.read? l.text = some l.numeral := by
  obtain ⟨c, cs, start, -⟩ := l.whole_start
  have digit : c.isDigit = true := l.whole_digits c (start ▸ List.mem_cons_self)
  have sign : spanSign l.text =
      (l.negative, l.whole ++ (fractionText l.fraction ++ exponentText l.exponent)) := by
    rw [text, start]
    cases l.negative with
    | true => rfl
    | false =>
      unfold spanSign
      split
      · next same =>
        injection same with same
        rw [same] at digit
        cases digit
      · next same =>
        injection same with same
        rw [same] at digit
        cases digit
      · rfl
  have none := not_digit_fraction l.fraction l.exponent stops_nil
  rw [List.append_nil] at none
  have exponent := readExponent?_text l.exponent_digits
  rw [Numeral.read?, sign]
  dsimp only
  rw [spanDigits_append l.whole_digits none, numeral, start]
  dsimp only [List.isEmpty_cons, Bool.false_and]
  cases point : l.fraction with
  | nil =>
    cases tail : l.exponent with
    | none => rfl
    | some e =>
      obtain ⟨negative, ds⟩ := e
      rw [tail] at exponent
      exact congrArg (Option.map _) exponent
  | cons d ds =>
    have all := l.fraction_digits
    rw [point] at all
    have after : spanDigits (d :: ds ++ exponentText l.exponent) =
        (d :: ds, exponentText l.exponent) := by
      have stop := not_digit_exponent l.exponent stops_nil
      rw [List.append_nil] at stop
      exact spanDigits_append all stop
    rw [fractionText, if_neg (List.cons_ne_nil d ds)]
    simp only [List.cons_append] at after ⊢
    rw [after, exponent]
    rfl

/-- A literal is the number at the start of a text in which it stops. -/
theorem numberSpan?_text {rest : List Char} (stops : Stops rest) :
    Json.numberSpan? (l.text ++ rest) = some (l.text, rest) := by
  obtain ⟨c, cs, start, zero⟩ := l.whole_start
  have digit : c.isDigit = true := l.whole_digits c (start ▸ List.mem_cons_self)
  have sign : Json.minusSpan (l.text ++ rest) = (signText l.negative,
      l.whole ++ (fractionText l.fraction ++ (exponentText l.exponent ++ rest))) := by
    rw [text, start, List.append_assoc, List.append_assoc, List.append_assoc]
    cases l.negative with
    | true => rfl
    | false =>
      unfold Json.minusSpan
      split
      · next same =>
        injection same with same
        rw [same] at digit
        cases digit
      · rfl
  have tail : Json.fractionSpan? (fractionText l.fraction ++ (exponentText l.exponent ++ rest)) =
      some (fractionText l.fraction ++ exponentText l.exponent, rest) := by
    have exponent := exponentSpan?_text l.exponent_digits stops
    have stop := not_digit_exponent l.exponent stops
    unfold fractionText
    split
    · -- Neither an exponent nor what stops the number starts with a point.
      have point : ∀ cs, exponentText l.exponent ++ rest ≠ '.' :: cs := by
        intro cs same
        cases tail : l.exponent with
        | none =>
          rw [tail, exponentText, List.nil_append] at same
          exact (stops '.' (same ▸ rfl)).2.1 rfl
        | some e =>
          rw [tail] at same
          injection same with same
          cases same
      rw [List.nil_append, List.nil_append]
      unfold Json.fractionSpan?
      split
      · next same => exact absurd same (point _)
      · exact exponent
    · next some =>
      rw [List.cons_append, Json.fractionSpan?, spanDigits_append l.fraction_digits stop]
      dsimp only
      rw [if_neg (by simpa using some), exponent]
      rfl
  rw [Json.numberSpan?, sign]
  dsimp only
  rw [spanDigits_append l.whole_digits (not_digit_fraction l.fraction l.exponent stops), text]
  dsimp only
  split
  · next none => exact absurd (start.symm.trans none) (List.cons_ne_nil c cs)
  · next d ds same =>
    rw [start] at same
    injection same with first others
    exact absurd (zero first) (others ▸ List.cons_ne_nil d ds)
  · rw [tail]
    exact congrArg (fun cs => some (cs, rest)) (List.append_assoc _ _ _)

end Literal

end SurfaceShading
