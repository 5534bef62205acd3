/-
  Portable pixmaps: the binary form with three bytes for a pixel.
-/
import SurfaceShading.Files.Path

namespace SurfaceShading

/-- A decoded image, four bytes for a pixel, row by row. -/
structure Image where
  width : UInt32
  height : UInt32
  data : List UInt8
  deriving Repr, DecidableEq

namespace Image

/-- The bytes that end a token of the header. -/
def isHeaderBlank (b : UInt8) : Bool := (9 ≤ b && b ≤ 13) || b == 32

/-- The next token of a header, and what follows the blank after it. A hash starts a comment
that goes to the end of the line, also within a token. Only ASCII is allowed outside comments.
The token is gathered backwards. -/
def headerToken (token : List UInt8) (inComment : Bool) : List UInt8 →
    Option (List UInt8 × List UInt8)
  | [] => if token.isEmpty then none else some (token.reverse, [])
  | b :: rest =>
    if inComment then headerToken token (!(b == 10 || b == 13)) rest
    else if b == 35 then headerToken token true rest
    else if isHeaderBlank b then
      if token.isEmpty then headerToken token false rest else some (token.reverse, rest)
    else if 128 ≤ b then none
    else headerToken (b :: token) false rest

/-- The number that a token writes. -/
def tokenNumber? (token : List UInt8) : Option Nat :=
  let digits := match token with
    | 43 :: rest => rest
    | rest => rest
  if digits.isEmpty || !digits.all (fun b => 48 ≤ b && b ≤ 57) then none
  else
    let n := digits.foldl (fun n b => 10 * n + (b.toNat - 48)) 0
    if n < UInt32.size then some n else none

/-- The next number of a header. -/
def headerNumber? (bytes : List UInt8) : Option (Nat × List UInt8) := do
  let (token, rest) ← headerToken [] false bytes
  let n ← tokenNumber? token
  pure (n, rest)

/-- Gives every pixel of three bytes a fourth for full opacity. -/
def addAlpha : List UInt8 → List UInt8
  | r :: g :: b :: rest => r :: g :: b :: 255 :: addAlpha rest
  | _ => []

/-- Decodes a pixmap with the full range of a byte. What follows the last pixel is ignored. -/
def decode? (bytes : List UInt8) : Option Image :=
  match bytes with
  | 80 :: 54 :: rest => do
    let (width, rest) ← headerNumber? rest
    let (height, rest) ← headerNumber? rest
    let (maximum, rest) ← headerNumber? rest
    let size := 3 * width * height
    if maximum = 255 ∧ size ≤ rest.length then
      some ⟨UInt32.ofNat width, UInt32.ofNat height, addAlpha (rest.take size)⟩
    else none
  | _ => none

/-- The extensions of files that hold pixmaps. -/
def extensions : List String := ["pbm", "pam", "ppm", "pgm"]

/-- Whether a file of this name can be decoded. -/
def isReadableName (path : String) : Bool :=
  match (Path.fileName? path).map Path.splitName with
  | some (_, some ext) => extensions.contains (String.ofList (ext.toList.map Char.toLower))
  | _ => false

end Image

end SurfaceShading
