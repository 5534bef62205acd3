/-
  The names of the files that generated sources and compiler reports are written to. Names of
  shaders and passes are escaped, so that no file leaves the directory. Passes may share a file:
  empty parts of a name are left out, and the parts are joined by a character that names have.
-/
import SurfaceShading.Text.Blank
import SurfaceShading.Text.Utf8

namespace SurfaceShading.Artifact

/-- Bytes that stand for themselves in a file name: ASCII letters and digits, the hyphen and
the underscore. -/
def isPlain (b : UInt8) : Bool :=
  (48 ≤ b && b ≤ 57) || (65 ≤ b && b ≤ 90) || (97 ≤ b && b ≤ 122) || b == 45 || b == 95

/-- A hexadecimal digit in upper case. -/
def hexDigit (n : Nat) : Char := if n < 10 then Char.ofNat (48 + n) else Char.ofNat (55 + n)

/-- A byte as itself, or as a percent sign and two hexadecimal digits. -/
def escapeByte (b : UInt8) : List Char :=
  if isPlain b then [Char.ofNat b.toNat]
  else ['%', hexDigit (b.toNat / 16), hexDigit (b.toNat % 16)]

/-- The escaped form of a text, byte by byte. -/
def escape (s : String) : String := String.ofList ((Text.utf8 s).flatMap escapeByte)

/-- The path that the name of a shader stands for: each slash starts a directory. -/
def stem (shader : String) : String :=
  let parts := (Text.splitAtChar '/' shader.toList).filter (! ·.isEmpty)
  String.intercalate "/" (parts.map fun part => escape (String.ofList part))

/-- The file of the generated source of a pass. -/
def sourceName (shader : String) (index : Nat) (pass : String) : String :=
  s!"{stem shader}_{index}_{escape pass}.hlsl"

/-- The file of the compiler's report on a pass. -/
def reportName (shader : String) (index : Nat) : String := s!"{stem shader}_{index}_error.txt"

end SurfaceShading.Artifact
