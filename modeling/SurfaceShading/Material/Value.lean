/-
  Values of material parameters: reading one from the text of an attribute, its form in a
  constant buffer, and reading it back from there.
-/
import SurfaceShading.Number.Shortest
import SurfaceShading.Shader.Property
import SurfaceShading.Text.Blank
import SurfaceShading.Text.Quoted

namespace SurfaceShading

/-- A value that a constant buffer holds in place. -/
inductive Value where
  | float (x : Binary32)
  | vector2 (x y : Binary32)
  | vector3 (x y z : Binary32)
  | vector4 (x y z w : Binary32)
  | int (n : Int32)
  | bool (b : Bool)
  deriving Repr, DecidableEq

/-- Why a text is not a value of the wanted type. -/
inductive ValueError where
  | notFinite (text : String)
  | notInteger (text : String)
  | notBoolean (text : String)
  | componentCount (expected found : Nat) (text : String)
  | noInlineValue
  deriving Repr, DecidableEq

def ValueError.message : ValueError → String
  | notFinite text => s!"{Text.quoted text} is not a finite number"
  | notInteger text => s!"{Text.quoted text} is not an integer"
  | notBoolean text => s!"{Text.quoted text} is not a boolean"
  | componentCount expected found text =>
    s!"expected {expected} components, found {found} in {Text.quoted text}"
  | noInlineValue => "texture parameters have no inline value"

namespace Value

def type : Value → ValueType
  | float _ => .float
  | vector2 _ _ => .vector2
  | vector3 _ _ _ => .vector3
  | vector4 _ _ _ _ => .vector4
  | int _ => .int
  | bool _ => .bool

/-- The floating-point components. -/
def components : Value → List Binary32
  | float x => [x]
  | vector2 x y => [x, y]
  | vector3 x y z => [x, y, z]
  | vector4 x y z w => [x, y, z, w]
  | int _ => []
  | bool _ => []

/-- Whether no component is infinite or not a number. -/
def isFinite (v : Value) : Bool := v.components.all Binary32.isFinite

def zero : ValueType → Value
  | .float => float .zero
  | .vector2 => vector2 .zero .zero
  | .vector3 => vector3 .zero .zero .zero
  | .vector4 => vector4 .zero .zero .zero .zero
  | .int => int 0
  | .bool => bool false

/-! ## The form in a constant buffer -/

/-- The 32-bit words of a value. A truth value fills a whole word. -/
def words : Value → List UInt32
  | float x => [x.bits]
  | vector2 x y => [x.bits, y.bits]
  | vector3 x y z => [x.bits, y.bits, z.bits]
  | vector4 x y z w => [x.bits, y.bits, z.bits, w.bits]
  | int n => [n.toUInt32]
  | bool b => [if b then 1 else 0]

/-- The value of a type that has the given words, if there is one. -/
def ofWords? : ValueType → List UInt32 → Option Value
  | .float, [x] => some (float ⟨x⟩)
  | .vector2, [x, y] => some (vector2 ⟨x⟩ ⟨y⟩)
  | .vector3, [x, y, z] => some (vector3 ⟨x⟩ ⟨y⟩ ⟨z⟩)
  | .vector4, [x, y, z, w] => some (vector4 ⟨x⟩ ⟨y⟩ ⟨z⟩ ⟨w⟩)
  | .int, [n] => some (int n.toInt32)
  | .bool, [b] => if b = 0 then some (bool false) else if b = 1 then some (bool true) else none
  | _, _ => none

@[simp] theorem length_words (v : Value) : v.words.length = v.type.wordCount := by
  cases v <;> rfl

end Value

namespace Bytes

/-- The four bytes of a word, the least significant first. -/
def ofWord (w : UInt32) : List UInt8 :=
  [w.toUInt8, (w >>> 8).toUInt8, (w >>> 16).toUInt8, (w >>> 24).toUInt8]

/-- The word that four bytes write. -/
def toWord (a b c d : UInt8) : UInt32 :=
  a.toUInt32 ||| (b.toUInt32 <<< 8) ||| (c.toUInt32 <<< 16) ||| (d.toUInt32 <<< 24)

/-- The words of a run of bytes; fewer than four bytes at the end are no word. -/
def toWords : List UInt8 → List UInt32
  | a :: b :: c :: d :: rest => toWord a b c d :: toWords rest
  | _ => []

/-- Lays data over a buffer from an offset on. What would stand behind the end is cut off, so
the buffer keeps its length. -/
def overwrite (buffer : List UInt8) (offset : Nat) (data : List UInt8) : List UInt8 :=
  buffer.take offset ++ data.take (buffer.length - offset) ++ buffer.drop (offset + data.length)

@[simp] theorem length_ofWord (w : UInt32) : (ofWord w).length = 4 := rfl

@[simp] theorem length_overwrite (buffer : List UInt8) (offset : Nat) (data : List UInt8) :
    (overwrite buffer offset data).length = buffer.length := by
  simp [overwrite]; omega

end Bytes

namespace Value

/-- The bytes of a value in a constant buffer. -/
def bytes (v : Value) : List UInt8 := v.words.flatMap Bytes.ofWord

/-! ## Reading from text -/

/-- Drops one `f` or `F` at the end. -/
def dropFloatSuffix (text : List Char) : List Char :=
  match text.getLast? with
  | some c => if c = 'f' ∨ c = 'F' then text.dropLast else text
  | none => text

/-- A finite number, with an `f` after it or without. -/
def readFloat (text : List Char) : Except ValueError Binary32 :=
  match Decimal.read? (Text.trim (dropFloatSuffix text)) with
  | some d =>
    let x := Binary32.ofDecimal d
    if x.isFinite then .ok x else .error (.notFinite (String.ofList text))
  | none => .error (.notFinite (String.ofList text))

/-- ASCII letters and digits. -/
def isAlphanumeric (c : Char) : Bool := c.isAlpha || c.isDigit

/-- What follows a constructor name such as `float4`, from its parenthesis on. -/
def dropConstructor (text : List Char) : List Char :=
  let name := text.takeWhile (· ≠ '(')
  if text.contains '(' && name.all isAlphanumeric then text.drop name.length else text

/-- The text between a parenthesis at the start and one at the end; the whole text unless
both are there. -/
def dropParentheses (text : List Char) : List Char :=
  match text with
  | '(' :: inner => if inner.getLast? = some ')' then inner.dropLast else text
  | _ => text

/-- The numbers of a list with commas, with or without a constructor name and parentheses.
Nothing between two commas is no number. -/
def readFloats (text : List Char) : Except ValueError (List Binary32) :=
  let parts := (Text.splitAtChar ',' (dropParentheses (dropConstructor text))).map Text.trim
  (parts.filter (! ·.isEmpty)).mapM readFloat

/-- The components of a vector. A single number is repeated. -/
def readComponents (count : Nat) (text : List Char) : Except ValueError (List Binary32) := do
  let xs ← readFloats text
  match xs with
  | [x] => .ok (List.replicate count x)
  | xs =>
    if xs.length = count then .ok xs
    else .error (.componentCount count xs.length (String.ofList text))

/-- A whole number with an optional sign. -/
def readInteger? (text : List Char) : Option Int :=
  let (negative, digits) := spanSign text
  if digits.isEmpty || !digits.all Char.isDigit then none
  else some (if negative then -(natOfDigits digits : Int) else natOfDigits digits)

/-- A 32-bit integer. -/
def readInt (text : List Char) : Except ValueError Int32 :=
  match readInteger? text with
  | some n =>
    if Int32.minValue.toInt ≤ n ∧ n ≤ Int32.maxValue.toInt then .ok (Int32.ofInt n)
    else .error (.notInteger (String.ofList text))
  | none => .error (.notInteger (String.ofList text))

/-- A truth value: `true`, `1`, `false` or `0`, in any case. -/
def readBool (text : List Char) : Except ValueError Bool :=
  let lower := String.ofList (text.map Char.toLower)
  if lower = "true" ∨ lower = "1" then .ok true
  else if lower = "false" ∨ lower = "0" then .ok false
  else .error (.notBoolean (String.ofList text))

/-- The value of a type that a trimmed text writes. -/
def read (type : ValueType) (text : List Char) : Except ValueError Value :=
  match type with
  | .float => float <$> readFloat text
  | .vector2 => do
    match ← readComponents 2 text with
    | [x, y] => .ok (vector2 x y)
    | xs => .error (.componentCount 2 xs.length (String.ofList text))
  | .vector3 => do
    match ← readComponents 3 text with
    | [x, y, z] => .ok (vector3 x y z)
    | xs => .error (.componentCount 3 xs.length (String.ofList text))
  | .vector4 => do
    match ← readComponents 4 text with
    | [x, y, z, w] => .ok (vector4 x y z w)
    | xs => .error (.componentCount 4 xs.length (String.ofList text))
  | .int => int <$> readInt text
  | .bool => bool <$> readBool text

/-- The value that the text of a `default(...)` attribute gives a property. -/
def parse (type : PropertyType) (text : String) : Except ValueError Value :=
  match type with
  | .value t => read t (Text.trim text.toList)
  | .texture _ => .error .noInlineValue

/-! ## Values in messages -/

/-- Messages write numbers from a ten-thousandth up to below ten quadrillions without an
exponent, and round a tie away from zero. -/
def messageStyle : DecimalStyle := ⟨-4, 15, false, .nearestAway⟩

/-- A number in a message; infinities and what is no number have names. -/
def describeFloat (x : Binary32) : String :=
  if x.isNaN then "NaN"
  else if x.isFinite then String.ofList (messageStyle.write x)
  else if x.negative then "-inf"
  else "inf"

/-- A value in a message, with its type in front. -/
def describe (v : Value) : String :=
  let listed := String.intercalate ", " (v.components.map describeFloat)
  match v with
  | float _ => s!"Float({listed})"
  | vector2 _ _ => s!"Vector2(Vec2({listed}))"
  | vector3 _ _ _ => s!"Vector3(Vec3({listed}))"
  | vector4 _ _ _ _ => s!"Vector4(Vec4({listed}))"
  | int n => s!"Int({n.toInt})"
  | bool b => if b then "Bool(true)" else "Bool(false)"

end Value

end SurfaceShading
