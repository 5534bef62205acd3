/-
  Material files: a name, a shader, and the values and texture paths that the material sets,
  as JSON.
-/
import SurfaceShading.Error
import SurfaceShading.Json.Printer
import SurfaceShading.Number.ScaledWord
import SurfaceShading.OrderedMap

namespace SurfaceShading

/-- The content of a material file. -/
structure MaterialFile where
  name : String
  shader : String
  parameters : OrderedMap String Value
  textures : OrderedMap String String
  deriving Repr, DecidableEq

/-- The fields that identify a material. -/
structure MaterialHeader where
  name : String
  shader : String
  deriving Repr, DecidableEq

/-! ## Reading -/

namespace Json

/-- The text of a string. -/
def text? : Json → Option String
  | .string text => text
  | _ => none

/-- The whole number that a numeral of 64 bits writes, with a sign if it is negative. Negative
zero is no whole number. -/
def wordOfLiteral? (literal : List Char) (n : Numeral) : Option Int :=
  let digits := natOfDigits n.whole
  if literal.any fun c => c == '.' || c == 'e' || c == 'E' then none
  else if n.negative then
    if 0 < digits ∧ Int64.minValue.toInt ≤ -digits then some (-(digits : Int)) else none
  else if digits < UInt64.size then some digits
  else none

/-- A number in single precision. A whole number of 64 bits is rounded once; any other number
is read in double precision first, and has to be in its range. -/
def binary32? : Json → Option Binary32
  | .number literal => do
    let n ← Numeral.read? literal
    match wordOfLiteral? literal n with
    | some _ => some (.ofDecimal n.value)
    | none => (ScaledWord.ofNumeral n).toDouble?.map (.narrow n.negative)
  | _ => none

/-- A whole number of 32 bits. -/
def int32? : Json → Option Int32
  | .number literal => do
    let n ← wordOfLiteral? literal (← Numeral.read? literal)
    if Int32.minValue.toInt ≤ n ∧ n ≤ Int32.maxValue.toInt then some (Int32.ofInt n) else none
  | _ => none

/-- The items of an array. -/
def items? : Json → Option (List Json)
  | .array items => some items
  | _ => none

/-- The members of an object, all of whose keys are texts. -/
def members? : Json → Option (List (String × Json))
  | .object members => members.mapM fun (key, v) => key.map (·, v)
  | _ => none

/-- The values of a key among members. -/
def valuesOf (key : String) (members : List (String × Json)) : List Json :=
  (members.filter fun m => m.1 == key).map Prod.snd

end Json

namespace Value

/-- The value of a type that a JSON value writes. A vector is an array of its components. -/
def ofJson? (type : ValueType) (v : Json) : Option Value :=
  match type with
  | .float => v.binary32?.map float
  | .int => v.int32?.map int
  | .bool =>
    match v with
    | .bool b => some (bool b)
    | _ => none
  | .vector2 => do
    match ← (← v.items?).mapM Json.binary32? with
    | [x, y] => some (vector2 x y)
    | _ => none
  | .vector3 => do
    match ← (← v.items?).mapM Json.binary32? with
    | [x, y, z] => some (vector3 x y z)
    | _ => none
  | .vector4 => do
    match ← (← v.items?).mapM Json.binary32? with
    | [x, y, z, w] => some (vector4 x y z w)
    | _ => none

/-- The value type of a name. -/
def typeOfName? (name : String) : Option ValueType :=
  [ValueType.float, .vector2, .vector3, .vector4, .int, .bool].find? fun t => t.name == name

/-- The name that tags a value in an object: a string, or an object whose one key is the name
and holds null. -/
def tagName? : Json → Option String
  | .object [(some name, .null)] => some name
  | v => v.text?

/-- A value with its type: an object with the members `type` and `value`, each once, or an
array of the two, where the tag has to be a string. Other members do not matter. -/
def ofTagged? (v : Json) : Option Value := do
  let (name, content) ← match v with
    | .array [tag, content] => some (← tag.text?, content)
    | .array _ => none
    | v => do
      let members ← v.members?
      match Json.valuesOf "type" members, Json.valuesOf "value" members with
      | [tag], [content] => some (← tagName? tag, content)
      | _, _ => none
  ofJson? (← typeOfName? name) content

end Value

namespace MaterialFile

/-- A map of which each value is read; of two values of a key the later holds. -/
def readMap? {α : Type} (read? : Json → Option α) (v : Json) : Option (OrderedMap String α) := do
  let entries ← (← v.members?).mapM fun (key, v) => (read? v).map (key, ·)
  some (.ofList entries)

/-- What a member that may be missing holds. -/
def readOptional? {α : Type} (read? : Json → Option α) : List Json →
    Option (OrderedMap String α)
  | [] => some .empty
  | [v] => readMap? read? v
  | _ => none

/-- The file of its fields, of which the last two may be missing. -/
def ofFields? (name shader : Json) (parameters textures : List Json) : Option MaterialFile := do
  some ⟨← name.text?, ← shader.text?, ← readOptional? Value.ofTagged? parameters,
    ← readOptional? Json.text? textures⟩

/-- The file that a JSON value writes: an object with each field at most once, or an array of
the fields in order. Other members do not matter. -/
def ofJson? (v : Json) : Option MaterialFile :=
  match v with
  | .array (name :: shader :: rest) =>
    match rest with
    | [] => ofFields? name shader [] []
    | [parameters] => ofFields? name shader [parameters] []
    | [parameters, textures] => ofFields? name shader [parameters] [textures]
    | _ => none
  | v => do
    let members ← v.members?
    match Json.valuesOf "name" members, Json.valuesOf "shader" members with
    | [name], [shader] =>
      ofFields? name shader (Json.valuesOf "parameters" members)
        (Json.valuesOf "textures" members)
    | _, _ => none

/-- The file that a text writes. -/
def parse? (text : String) : Option MaterialFile := (Json.parse? text).bind ofJson?

end MaterialFile

namespace MaterialHeader

/-- The header in a JSON value: an object with name and shader, each once, or an array of the
two alone. -/
def ofJson? (v : Json) : Option MaterialHeader := do
  let (name, shader) ← match v with
    | .array [name, shader] => some (name, shader)
    | .array _ => none
    | v => do
      let members ← v.members?
      match Json.valuesOf "name" members, Json.valuesOf "shader" members with
      | [name], [shader] => some (name, shader)
      | _, _ => none
  some ⟨← name.text?, ← shader.text?⟩

/-- The header in a text. -/
def parse? (text : String) : Option MaterialHeader := (Json.parse? text).bind ofJson?

end MaterialHeader

/-! ## Writing -/

namespace Value

/-- Files write numbers from a millionth up to below ten trillions without an exponent, show
the sign of a positive one, and end a tie on the even digit. -/
def fileStyle : DecimalStyle := ⟨-6, 12, true, .nearestEven⟩

/-- A number; what is infinite or no number has no literal. -/
def floatToJson (x : Binary32) : Json :=
  if x.isFinite then .number (fileStyle.write x) else .null

/-- The JSON form of a value without its type. -/
def contentToJson : Value → Json
  | float x => floatToJson x
  | int n => .number (toString n.toInt).toList
  | bool b => .bool b
  | v => .array (v.components.map floatToJson)

/-- The JSON form of a value with its type. -/
def toJson (v : Value) : Json :=
  .object [(some "type", .string (some v.type.name)), (some "value", v.contentToJson)]

end Value

namespace MaterialFile

/-- The JSON form of a file. -/
def toJson (file : MaterialFile) : Json :=
  .object [
    (some "name", .string (some file.name)),
    (some "shader", .string (some file.shader)),
    (some "parameters",
      .object (file.parameters.entries.map fun (key, v) => (some key, v.toJson))),
    (some "textures",
      .object (file.textures.entries.map fun (key, path) => (some key, .string (some path))))]

/-- The text of a file. -/
def print (file : MaterialFile) : String := file.toJson.print

/-! ## Files on disk -/

/-- Reads a file. -/
def load (disk : Disk) (path : String) : Except Error MaterialFile :=
  match disk.readText path with
  | .error e => .error (.file e)
  | .ok text =>
    match parse? text with
    | some file => .ok file
    | none => .error (.malformedMaterial path)

/-- Writes a file with the directories above it. -/
def save (file : MaterialFile) (disk : Disk) (path : String) : Disk × Except Error Unit :=
  match disk.writeBelow path (Text.utf8 file.print) with
  | (disk, .ok ()) => (disk, .ok ())
  | (disk, .error e) => (disk, .error (.file e))

end MaterialFile

/-- Reads the header of a file. -/
def MaterialHeader.load (disk : Disk) (path : String) : Except Error MaterialHeader :=
  match disk.readText path with
  | .error e => .error (.file e)
  | .ok text =>
    match parse? text with
    | some header => .ok header
    | none => .error (.malformedMaterial path)

end SurfaceShading
