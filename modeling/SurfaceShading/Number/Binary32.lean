/-
  Single-precision numbers, kept as their bit patterns. Nothing here computes with them; they
  are read, compared bit by bit, and written.
-/
import SurfaceShading.Number.Decimal

namespace SurfaceShading

/-- A single-precision number, given by its 32 bits: sign, exponent field, fraction field. -/
structure Binary32 where
  bits : UInt32
  deriving Repr, DecidableEq, Inhabited

namespace Binary32

/-- Positive zero. -/
def zero : Binary32 := ⟨0⟩

/-- The pattern without its sign bit. -/
def magnitude (x : Binary32) : Nat := x.bits.toNat % Nat.pow 2 31

/-- Whether the sign bit is set. -/
def negative (x : Binary32) : Bool := Nat.pow 2 31 ≤ x.bits.toNat

def isFinite (x : Binary32) : Bool := x.magnitude < BinaryFormat.single.infinity

def isNaN (x : Binary32) : Bool := BinaryFormat.single.infinity < x.magnitude

/-- The number with a given sign and magnitude pattern. -/
def ofMagnitude (negative : Bool) (magnitude : Nat) : Binary32 :=
  ⟨UInt32.ofNat (if negative then Nat.pow 2 31 + magnitude else magnitude)⟩

/-- The number nearest to a decimal one. -/
def ofDecimal (d : Decimal) : Binary32 :=
  ofMagnitude d.negative (d.magnitudeIn .single)

/-- A double-precision magnitude pattern rounded to single precision. -/
def narrow (negative : Bool) (double : Nat) : Binary32 :=
  let (mantissa, scale) := BinaryFormat.double.decode double
  ofMagnitude negative
    (BinaryFormat.single.ofRatio (mantissa * Nat.pow 2 scale)
      (Nat.pow 2 BinaryFormat.double.unitBits))

end Binary32

end SurfaceShading
