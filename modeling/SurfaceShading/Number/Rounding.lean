/-
  Rounding a quotient of natural numbers to the nearest one, a tie to the even neighbour, and
  what follows from it: values of a binary floating-point format that are nearest to a ratio.

  Powers are spelled `Nat.pow`: what `2 ^ n` stands for depends on the algebra in scope.
-/

namespace SurfaceShading

/-- The natural number nearest to `num / den`; of two that are equally near, the even one. -/
def divRoundEven (num den : Nat) : Nat :=
  let q := num / den
  let twice := 2 * (num % den)
  if twice < den then q
  else if den < twice then q + 1
  else q + q % 2

/-- A binary interchange format: the widths of its fraction and exponent fields. A magnitude
is written as the number `exponent field * 2 ^ fractionBits + fraction field`, so magnitudes
are ordered as their patterns are. -/
structure BinaryFormat where
  fractionBits : Nat
  exponentBits : Nat
  deriving Repr, DecidableEq

namespace BinaryFormat

/-- The 32-bit format. -/
def single : BinaryFormat := ⟨23, 8⟩

/-- The 64-bit format. -/
def double : BinaryFormat := ⟨52, 11⟩

/-- Every finite magnitude is a multiple of `2 ^ -unitBits`, the least positive one. -/
def unitBits (f : BinaryFormat) : Nat :=
  Nat.pow 2 (f.exponentBits - 1) - 2 + f.fractionBits

/-- The pattern of infinity; the greater patterns are not numbers. -/
def infinity (f : BinaryFormat) : Nat :=
  (Nat.pow 2 f.exponentBits - 1) * Nat.pow 2 f.fractionBits

/-- Mantissa `m` and scale `s` of a finite pattern, whose magnitude is
`m * 2 ^ s * 2 ^ -unitBits`. -/
def decode (f : BinaryFormat) (pattern : Nat) : Nat × Nat :=
  let exponent := pattern / Nat.pow 2 f.fractionBits
  let fraction := pattern % Nat.pow 2 f.fractionBits
  if exponent = 0 then (fraction, 0) else (fraction + Nat.pow 2 f.fractionBits, exponent - 1)

/-- The pattern of the magnitude nearest to `num / den`, a tie to the even mantissa; infinity
if the ratio is too great. A mantissa rounded up to the next power of two carries into the
exponent field, which is why the two parts are added. -/
def ofRatio (f : BinaryFormat) (num den : Nat) : Nat :=
  let scaled := num * Nat.pow 2 f.unitBits
  let shift := (scaled / den).log2 - f.fractionBits
  let mantissa := divRoundEven scaled (den * Nat.pow 2 shift)
  min (shift * Nat.pow 2 f.fractionBits + mantissa) f.infinity

/-- The product of two finite magnitudes, rounded once. -/
def mul (f : BinaryFormat) (a b : Nat) : Nat :=
  let (m, s) := f.decode a
  let (n, t) := f.decode b
  f.ofRatio (m * n * Nat.pow 2 (s + t)) (Nat.pow 2 (2 * f.unitBits))

/-- The quotient of two finite magnitudes, the second not zero, rounded once. -/
def div (f : BinaryFormat) (a b : Nat) : Nat :=
  let (m, s) := f.decode a
  let (n, t) := f.decode b
  f.ofRatio (m * Nat.pow 2 s) (n * Nat.pow 2 t)

end BinaryFormat

end SurfaceShading
