/-
  Texture data before its upload.
-/
import SurfaceShading.Gpu.Descriptor
import SurfaceShading.Gpu.Error
import SurfaceShading.Texture.Image

namespace SurfaceShading

/-- Texels of four bytes. The six faces of a cube stand one after the other, and width and
height are those of one face. -/
structure TextureData where
  width : UInt32
  height : UInt32
  format : PixelFormat
  dimension : TextureDimension
  data : List UInt8
  name : String
  deriving Repr, DecidableEq

namespace TextureData

/-- The data of an image. -/
def ofImage (image : Image) (name : String) : TextureData :=
  ⟨image.width, image.height, .rgba8UnormSrgb, .d2, image.data, name⟩

/-- The data that encoded bytes hold. -/
def ofBytes (bytes : List UInt8) (name : String) : Except DeviceError TextureData :=
  match Image.decode? bytes with
  | some image => .ok (ofImage image name)
  | none => .error (.textureLoad name .undecodable)

/-- One texel of a color. -/
def solid (color : List UInt8) (name : String) : TextureData :=
  ⟨1, 1, .rgba8UnormSrgb, .d2, color, name⟩

/-- White texels, one for each layer. -/
def white (dimension : TextureDimension) : TextureData :=
  { solid (List.replicate (4 * dimension.layers) 255) "white" with dimension := dimension }

/-- The product of two numbers of 32 bits. There is none if it has more bits. -/
def product? (a b : UInt32) : Option UInt32 :=
  if a.toNat * b.toNat < UInt32.size then some (a * b) else none

/-- How data is refused that is no strip of six faces. -/
def notStrip (t : TextureData) : DeviceError := .textureLoad t.name (.notCubeStrip t.width t.height)

/-- Takes a strip of six square faces, one below the other, as a cube. A cube stays as it is.
There is no answer, not even a refusal, if six widths have more than 32 bits: the product
overflows, and the program breaks off. -/
def toCube (t : TextureData) : Option (Except DeviceError TextureData) :=
  match t.dimension with
  | .cube => some (.ok t)
  | .d2 => do
    let strip ← product? t.width 6
    if t.height = strip then some (.ok { t with height := t.width, dimension := .cube })
    else some (.error t.notStrip)

def descriptor (t : TextureData) : TextureDescriptor :=
  ⟨some t.name, t.width, t.height, t.format, t.dimension⟩

end TextureData

end SurfaceShading
