/-
  Decimal numbers: reading one from text, and rounding one to a binary format.
-/
import SurfaceShading.Number.Rounding

namespace SurfaceShading

/-- The number `± digits * 10 ^ exponent`. -/
structure Decimal where
  negative : Bool
  digits : Nat
  exponent : Int
  deriving Repr, DecidableEq

/-- The value of a decimal digit. -/
def digitValue (c : Char) : Nat := c.toNat - '0'.toNat

/-- The number a run of decimal digits writes. -/
def natOfDigits (cs : List Char) : Nat :=
  cs.foldl (fun n c => 10 * n + digitValue c) 0

/-- Splits a leading run of decimal digits off. -/
def spanDigits (cs : List Char) : List Char × List Char :=
  (cs.takeWhile Char.isDigit, cs.dropWhile Char.isDigit)

/-- Splits a leading sign off: whether it is a minus, and what follows it. -/
def spanSign : List Char → Bool × List Char
  | '-' :: cs => (true, cs)
  | '+' :: cs => (false, cs)
  | cs => (false, cs)

/-- The parts of a number as it is written. -/
structure Numeral where
  negative : Bool
  whole : List Char
  fraction : List Char
  exponent : Int
  deriving Repr, DecidableEq

namespace Numeral

/-- The exponent part of a number: nothing, or `e` and an integer to the end. -/
def readExponent? : List Char → Option Int
  | [] => some 0
  | c :: cs =>
    if c = 'e' ∨ c = 'E' then
      let (negative, ds) := spanSign cs
      if ds.isEmpty ∨ ¬ ds.all Char.isDigit then none
      else some (if negative then -(natOfDigits ds : Int) else natOfDigits ds)
    else none

/-- Reads a number: an optional sign, digits with at most one point among, before or after
them, and an optional exponent. At least one digit stands before the exponent. -/
def read? (cs : List Char) : Option Numeral :=
  let (negative, unsigned) := spanSign cs
  let (whole, afterWhole) := spanDigits unsigned
  let (fraction, tail) :=
    match afterWhole with
    | '.' :: cs => spanDigits cs
    | cs => ([], cs)
  if whole.isEmpty && fraction.isEmpty then none
  else (readExponent? tail).map fun e => ⟨negative, whole, fraction, e⟩

/-- The number that the parts write. -/
def value (n : Numeral) : Decimal :=
  ⟨n.negative, natOfDigits (n.whole ++ n.fraction), n.exponent - n.fraction.length⟩

end Numeral

namespace Decimal

/-- Reads a number. -/
def read? (cs : List Char) : Option Decimal := (Numeral.read? cs).map Numeral.value

/-- A number whose first digit stands at a power of ten above this is beyond every format, and
one whose first digit stands below its negative is nearer to zero than to anything else. -/
def exponentLimit : Int := 400

/-- The magnitude pattern of the format's value nearest to a decimal number. -/
def magnitudeIn (d : Decimal) (f : BinaryFormat) : Nat :=
  let top : Int := (Nat.toDigits 10 d.digits).length + d.exponent
  if d.digits = 0 ∨ top < -exponentLimit then 0
  else if exponentLimit < top then f.infinity
  else f.ofRatio (d.digits * Nat.pow 10 d.exponent.toNat) (Nat.pow 10 (-d.exponent).toNat)

end Decimal

end SurfaceShading
