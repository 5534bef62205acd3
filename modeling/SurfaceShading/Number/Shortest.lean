/-
  The shortest decimal text of a binary number: the fewest digits that read back, of those the
  nearest to the value, and of two equally near the one that a rule for ties chooses.
-/
import SurfaceShading.Number.Binary32

namespace SurfaceShading

/-- A magnitude and the ends of the interval of magnitudes that round to it, all counted in
quarters of the format's unit. The ends belong to the interval iff the mantissa is even. -/
structure RoundingInterval where
  low : Nat
  value : Nat
  high : Nat
  closed : Bool
  deriving Repr, DecidableEq

namespace BinaryFormat

/-- The rounding interval of a finite positive pattern. Below a power of two the neighbour is
half as far away as above it, unless it is subnormal. -/
def interval (f : BinaryFormat) (pattern : Nat) : RoundingInterval :=
  let (m, s) := f.decode pattern
  let unit := Nat.pow 2 s
  let below := if m = Nat.pow 2 f.fractionBits ∧ 0 < s then unit else 2 * unit
  ⟨4 * m * unit - below, 4 * m * unit, 4 * m * unit + 2 * unit, m % 2 == 0⟩

end BinaryFormat

/-- The positive number `digits * 10 ^ exponent`. -/
structure Digits where
  digits : Nat
  exponent : Int
  deriving Repr, DecidableEq

namespace Digits

/-- The number of decimal digits. -/
def count (n : Nat) : Nat := (Nat.toDigits 10 n).length

/-- Moves the zeros at the end of a digit string into the exponent. -/
def stripZeros (n : Nat) (e : Int) : Digits :=
  if h : 0 < n ∧ n % 10 = 0 then stripZeros (n / 10) (e + 1) else ⟨n, e⟩
  termination_by n
  decreasing_by omega

/-- The power of ten of the first digit. -/
def leading (d : Digits) : Int := count d.digits - 1 + d.exponent

end Digits

/-- Which of two neighbouring digit strings stands for a magnitude halfway between them: the
one with an even last digit, or the greater. -/
inductive TieRule where
  | nearestEven
  | nearestAway
  deriving Repr, DecidableEq

/-- Whether the lower neighbour `d` stands for a magnitude halfway between `d` and `d + 1`. -/
def TieRule.keeps : TieRule → Nat → Bool
  | nearestEven, d => d % 2 == 0
  | nearestAway, _ => false

namespace RoundingInterval

/-- Whether `num / den` lies in the interval, where an interval unit is `1 / unit`. -/
def covers (i : RoundingInterval) (unit num den : Nat) : Bool :=
  let x := num * unit
  if i.closed then i.low * den ≤ x && x ≤ i.high * den
  else i.low * den < x && x < i.high * den

/-- The nearest number of the grid of step `10 ^ e` that lies in the interval. Only the two
grid points around the value can be it. -/
def onGrid? (i : RoundingInterval) (ties : TieRule) (unit : Nat) (e : Int) : Option Digits :=
  let up := Nat.pow 10 e.toNat
  let down := Nat.pow 10 (-e).toNat
  let d := i.value * down / (unit * up)
  let below := i.covers unit (d * up) down
  let above := i.covers unit ((d + 1) * up) down
  let twice := 2 * (i.value * down)
  let middle := (2 * d + 1) * (unit * up)
  let towardBelow := twice < middle || (twice == middle && ties.keeps d)
  if below && (towardBelow || !above) then some (.stripZeros d e)
  else if above then some (.stripZeros (d + 1) e)
  else none

end RoundingInterval

namespace BinaryFormat

/-- The shortest digits of a finite positive magnitude. Every magnitude has a finite decimal
expansion, which stands at the end of the search. -/
def shortest (f : BinaryFormat) (ties : TieRule) (pattern : Nat) : Digits :=
  let i := f.interval pattern
  let unit := Nat.pow 2 (f.unitBits + 2)
  let exact := Digits.stripZeros (i.value * Nat.pow 5 (f.unitBits + 2)) (-(f.unitBits + 2 : Int))
  let top := exact.leading
  ((List.range (f.fractionBits / 3 + 2)).findSome? fun (n : Nat) =>
    i.onGrid? ties unit (top - n)).getD exact

end BinaryFormat

/-- How a number is written: which powers of ten of the first digit are laid out with a point
among the digits and no exponent, whether a positive exponent shows its sign, and which digits
stand for a tie. -/
structure DecimalStyle where
  positionalFrom : Int
  positionalTo : Int
  plusSign : Bool
  ties : TieRule
  deriving Repr, DecidableEq

namespace DecimalStyle

/-- Digits with a point and no exponent. A whole number gets one zero after the point. -/
def positional (d : Digits) : List Char :=
  let ds := Nat.toDigits 10 d.digits
  if 0 ≤ d.exponent then ds ++ List.replicate d.exponent.toNat '0' ++ ['.', '0']
  else
    let places := (-d.exponent).toNat
    if places < ds.length then
      ds.take (ds.length - places) ++ '.' :: ds.drop (ds.length - places)
    else '0' :: '.' :: List.replicate (places - ds.length) '0' ++ ds

/-- One digit, the others after a point, and the exponent. -/
def scientific (style : DecimalStyle) (d : Digits) : List Char :=
  let ds := Nat.toDigits 10 d.digits
  let mantissa :=
    match ds with
    | [] => []
    | [c] => [c]
    | c :: cs => c :: '.' :: cs
  let e := d.leading
  let sign := if e < 0 then ['-'] else if style.plusSign then ['+'] else []
  mantissa ++ 'e' :: sign ++ Nat.toDigits 10 e.natAbs

/-- The text of a finite number. -/
def write (style : DecimalStyle) (x : Binary32) : List Char :=
  let sign := if x.negative then ['-'] else []
  if x.magnitude = 0 then sign ++ ['0', '.', '0']
  else
    let d := BinaryFormat.single.shortest style.ties x.magnitude
    if style.positionalFrom ≤ d.leading ∧ d.leading ≤ style.positionalTo then
      sign ++ positional d
    else sign ++ style.scientific d

end DecimalStyle

end SurfaceShading
