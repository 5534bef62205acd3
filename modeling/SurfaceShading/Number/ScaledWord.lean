/-
  Numbers as a word of 64 bits scaled by a power of ten, in double precision: each step
  rounds, so the result is near the number and need not be the nearest.
-/
import SurfaceShading.Number.Decimal

namespace SurfaceShading

/-- The number `word * 10 ^ exponent`. -/
structure ScaledWord where
  word : Nat
  exponent : Int
  deriving Repr, DecidableEq

namespace ScaledWord

/-- The least number that does not fit a word. -/
def wordLimit : Nat := UInt64.size

/-- Appends digits to a word up to the first with which it would not fit. The rest is left. -/
def takeDigits (word : Nat) : List Char → Nat × List Char
  | [] => (word, [])
  | c :: cs =>
    let longer := 10 * word + digitValue c
    if longer < wordLimit then takeDigits longer cs else (word, c :: cs)

/-- The magnitude of a numeral by its leading digits. Whole digits that do not fit count as
zeros, and fraction digits that do not fit are dropped. -/
def ofNumeral (n : Numeral) : ScaledWord :=
  let (whole, zeros) := takeDigits 0 n.whole
  let (word, dropped) := takeDigits whole n.fraction
  ⟨word, n.exponent + zeros.length - (n.fraction.length - dropped.length : Nat)⟩

/-- The greatest power of ten in double precision. -/
def maxPower : Nat := 308

/-- A power of ten in double precision. -/
def powerOfTen (e : Nat) : Nat := BinaryFormat.double.ofRatio (Nat.pow 10 e) 1

/-- A double divided by a power of ten, by at most the greatest one at a time. -/
def scaleDown (double e : Nat) : Nat :=
  if double = 0 then 0
  else if e ≤ maxPower then BinaryFormat.double.div double (powerOfTen e)
  else scaleDown (BinaryFormat.double.div double (powerOfTen maxPower)) (e - maxPower)
  termination_by e
  decreasing_by simp only [maxPower] at *; omega

/-- The number in double precision, unless it is beyond the range. -/
def toDouble? (x : ScaledWord) : Option Nat :=
  let double := BinaryFormat.double.ofRatio x.word 1
  if x.exponent < 0 then some (scaleDown double x.exponent.natAbs)
  else if x.word = 0 then some 0
  else if x.exponent.toNat ≤ maxPower then
    let scaled := BinaryFormat.double.mul double (powerOfTen x.exponent.toNat)
    if scaled = BinaryFormat.double.infinity then none else some scaled
  else none

end ScaledWord

end SurfaceShading
