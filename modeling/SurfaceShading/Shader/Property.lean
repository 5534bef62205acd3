/-
  The declared types of material properties, and the properties of a shader.
-/
import SurfaceShading.Gpu.Descriptor

namespace SurfaceShading

/-- The types of values that a constant buffer holds in place. -/
inductive ValueType where
  | float
  | vector2
  | vector3
  | vector4
  | int
  | bool
  deriving Repr, DecidableEq

namespace ValueType

/-- The number of 32-bit words of a value. -/
def wordCount : ValueType → Nat
  | float => 1
  | vector2 => 2
  | vector3 => 3
  | vector4 => 4
  | int => 1
  | bool => 1

def name : ValueType → String
  | float => "Float"
  | vector2 => "Vector2"
  | vector3 => "Vector3"
  | vector4 => "Vector4"
  | int => "Int"
  | bool => "Bool"

/-- The type as the native shading language writes it. -/
def nativeName : ValueType → String
  | float => "float"
  | vector2 => "float2"
  | vector3 => "float3"
  | vector4 => "float4"
  | int => "int"
  | bool => "bool"

end ValueType

/-- The declared type of a property: a value, or a texture of some shape. -/
inductive PropertyType where
  | value (type : ValueType)
  | texture (dimension : TextureDimension)
  deriving Repr, DecidableEq

namespace PropertyType

/-- All declarable types. -/
def all : List PropertyType :=
  [.value .float, .value .vector2, .value .vector3, .value .vector4, .value .int, .value .bool,
    .texture .d2, .texture .cube]

def isTexture : PropertyType → Bool
  | value _ => false
  | texture _ => true

def dimension? : PropertyType → Option TextureDimension
  | value _ => none
  | texture d => some d

/-- The bytes taken in the constant buffer: a texture is there as the index of its slot. -/
def size : PropertyType → UInt32
  | value t => UInt32.ofNat (4 * t.wordCount)
  | texture _ => 4

def name : PropertyType → String
  | value t => t.name
  | texture .d2 => "Texture2D"
  | texture .cube => "TextureCube"

/-- The type of the constant-buffer field. -/
def nativeName : PropertyType → String
  | value t => t.nativeName
  | texture _ => "uint"

/-- The type of a name. -/
def ofName? (s : String) : Option PropertyType := all.find? fun t => t.name == s

end PropertyType

/-- A declared property. The four attributes are kept as they are written. -/
structure Property where
  name : String
  type : PropertyType
  default : Option String
  min : Option String
  max : Option String
  ui : Option String
  deriving Repr, DecidableEq

/-- A property without attributes. -/
def Property.plain (name : String) (type : PropertyType) : Property :=
  ⟨name, type, none, none, none, none⟩

end SurfaceShading
