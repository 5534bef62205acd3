/-
  The layout of a material's constant buffer. Values come first, in the order of their
  declaration, and no value crosses the boundary of a 16-byte register; the indices of the
  textures follow, one word each.
-/
import SurfaceShading.Material.Value

namespace SurfaceShading

/-- The size of one register. -/
def registerSize : UInt32 := 16

/-- Constant buffers are allocated in multiples of this size. -/
def bufferAlignment : UInt32 := 256

/-- The least multiple of a power of two that is not below a value. -/
def alignUp (value alignment : UInt32) : UInt32 :=
  (value + alignment - 1) &&& ~~~(alignment - 1)

/-- What a parameter's place in the buffer holds: a value, with the one taken where a material
sets none, or the index of a texture, with the name that its declaration gives a default. -/
inductive ParameterContent where
  | value (default : Value)
  | texture (dimension : TextureDimension) (defaultName : Option String)
  deriving Repr, DecidableEq

/-- A property with its place in the constant buffer. The register is the row of a value and
the ordinal of a texture. -/
structure Parameter where
  name : String
  register : UInt32
  offset : UInt32
  content : ParameterContent
  deriving Repr, DecidableEq

namespace Parameter

def type (p : Parameter) : PropertyType :=
  match p.content with
  | .value v => .value v.type
  | .texture d _ => .texture d

def isTexture (p : Parameter) : Bool := p.type.isTexture

def size (p : Parameter) : UInt32 := p.type.size

/-- The first byte after the parameter. -/
def endOffset (p : Parameter) : UInt32 := p.offset + p.size

/-- The name of the field in the constant buffer. -/
def fieldName (p : Parameter) : String := if p.isTexture then p.name ++ "_Index" else p.name

/-- The value in force where a material sets none. -/
def default? (p : Parameter) : Option Value :=
  match p.content with
  | .value v => some v
  | .texture _ _ => none

end Parameter

namespace Property

/-- The value that the `default(...)` attribute gives; zero without one or with one that is no
value of the type. -/
def defaultValue (p : Property) (t : ValueType) : Value :=
  match p.default with
  | none => .zero t
  | some text =>
    match Value.parse (.value t) text with
    | .ok v => v
    | .error _ => .zero t

/-- What is wrong with the `default(...)` attribute of a value. -/
def defaultError? (p : Property) : Option ValueError :=
  match p.type, p.default with
  | .value t, some text =>
    match Value.parse (.value t) text with
    | .ok _ => none
    | .error e => some e
  | _, _ => none

end Property

/-- The parameters of a shader and the size of its constant buffer. -/
structure Layout where
  parameters : List Parameter
  size : UInt32
  deriving Repr, DecidableEq

namespace Layout

/-- The first place at or after an offset where a value of some size stays within one
register. -/
def fit (offset size : UInt32) : UInt32 :=
  if offset % registerSize + size > registerSize then alignUp offset registerSize else offset

/-- Places the values of a list of properties from an offset on. Also gives the end of the
last one. -/
def placeValues (offset : UInt32) : List Property → List Parameter × UInt32
  | [] => ([], offset)
  | p :: rest =>
    match p.type with
    | .texture _ => placeValues offset rest
    | .value t =>
      let start := fit offset p.type.size
      let (placed, last) := placeValues (start + p.type.size) rest
      (⟨p.name, start / registerSize, start, .value (p.defaultValue t)⟩ :: placed, last)

/-- Places the textures of a list of properties from an offset on, the first of them with the
given ordinal. -/
def placeTextures (offset ordinal : UInt32) : List Property → List Parameter × UInt32
  | [] => ([], offset)
  | p :: rest =>
    match p.type with
    | .value _ => placeTextures offset ordinal rest
    | .texture d =>
      let (placed, last) := placeTextures (offset + p.type.size) (ordinal + 1) rest
      (⟨p.name, ordinal, offset, .texture d p.default⟩ :: placed, last)

/-- The layout of a list of properties. -/
def ofProperties (properties : List Property) : Layout :=
  let (values, valuesEnd) := placeValues 0 properties
  let (textures, texturesEnd) := placeTextures (alignUp valuesEnd 4) 0 properties
  ⟨values ++ textures, alignUp texturesEnd bufferAlignment⟩

/-- The parameter of a name. -/
def parameter? (layout : Layout) (name : String) : Option Parameter :=
  layout.parameters.find? fun p => p.name == name

end Layout

end SurfaceShading
