/-
  What the host's device is asked to create: shader stages and their bytecode, textures,
  buffers and graphics pipelines.
-/

namespace SurfaceShading

/-- The name by which the device knows a buffer, a texture or a pipeline. -/
abbrev Handle := Nat

/-- The two programmable stages of a pass. -/
inductive Stage where
  | vertex
  | fragment
  deriving Repr, DecidableEq, Inhabited

namespace Stage

def name : Stage → String
  | vertex => "Vertex"
  | fragment => "Fragment"

/-- The compile target of the stage. -/
def profile : Stage → String
  | vertex => "vs_6_6"
  | fragment => "ps_6_6"

end Stage

/-- One compiled stage. -/
structure Bytecode where
  stage : Stage
  entry : String
  bytes : List UInt8
  deriving Repr, DecidableEq

/-- Formats of textures and render targets. -/
inductive PixelFormat where
  | rgba8Unorm
  | rgba8UnormSrgb
  | rgba16Float
  | rg16Float
  | depth32Float
  deriving Repr, DecidableEq

namespace PixelFormat

def name : PixelFormat → String
  | rgba8Unorm => "Rgba8Unorm"
  | rgba8UnormSrgb => "Rgba8UnormSrgb"
  | rgba16Float => "Rgba16Float"
  | rg16Float => "Rg16Float"
  | depth32Float => "Depth32Float"

end PixelFormat

/-- The shape of a sampled texture and of the views written for it. -/
inductive TextureDimension where
  | d2
  | cube
  deriving Repr, DecidableEq, Inhabited

namespace TextureDimension

def name : TextureDimension → String
  | d2 => "D2"
  | cube => "Cube"

/-- A cube has six faces, stored one after the other. -/
def layers : TextureDimension → Nat
  | d2 => 1
  | cube => 6

end TextureDimension

/-- A texture to create. Width and height of a cube are those of one face. -/
structure TextureDescriptor where
  label : Option String
  width : UInt32
  height : UInt32
  format : PixelFormat
  dimension : TextureDimension
  deriving Repr, DecidableEq

/-- A plain texture of one texel. -/
def TextureDescriptor.single : TextureDescriptor := ⟨none, 1, 1, .rgba8Unorm, .d2⟩

/-- The memory a buffer lives in. Upload memory stays mapped while the buffer lives. -/
inductive Heap where
  | gpu
  | upload
  deriving Repr, DecidableEq

/-- A buffer to create. -/
structure BufferDescriptor where
  label : String
  size : Nat
  heap : Heap
  deriving Repr, DecidableEq

/-- A constant buffer that stays mapped. -/
def BufferDescriptor.constants (label : String) (size : Nat) : BufferDescriptor :=
  ⟨label, size, .upload⟩

/-- Formats of vertex attributes. -/
inductive ElementFormat where
  | float2
  | float3
  | float4
  deriving Repr, DecidableEq

namespace ElementFormat

def name : ElementFormat → String
  | float2 => "Float2"
  | float3 => "Float3"
  | float4 => "Float4"

def size : ElementFormat → Nat
  | float2 => 8
  | float3 => 12
  | float4 => 16

end ElementFormat

/-- One vertex attribute, matched by its semantic. -/
structure InputElement where
  semantic : String
  format : ElementFormat
  offset : Nat
  deriving Repr, DecidableEq

/-- The attributes of one vertex, in the order in which they are stored. -/
abbrev InputLayout := List InputElement

namespace InputLayout

/-- Attributes one after the other, from an offset on. -/
def packed (offset : Nat) : List (String × ElementFormat) → InputLayout
  | [] => []
  | (semantic, format) :: rest => ⟨semantic, format, offset⟩ :: packed (offset + format.size) rest

/-- The size of one vertex. -/
def stride (layout : InputLayout) : Nat :=
  layout.foldr (fun e size => e.format.size + size) 0

/-- Vertices of meshes. -/
def mesh : InputLayout :=
  packed 0 [("POSITION", .float3), ("NORMAL", .float3), ("TEXCOORD", .float2),
    ("TANGENT", .float4)]

/-- Vertices of the quad that covers the screen. -/
def screen : InputLayout := packed 0 [("POSITION", .float3), ("TEXCOORD", .float2)]

end InputLayout

/-- Which faces are not drawn. -/
inductive CullMode where
  | none
  | back
  deriving Repr, DecidableEq

def CullMode.name : CullMode → String
  | none => "None"
  | back => "Back"

/-- When a fragment passes the depth test. -/
inductive DepthTest where
  | less
  | lessEqual
  | always
  deriving Repr, DecidableEq

def DepthTest.name : DepthTest → String
  | less => "Less"
  | lessEqual => "LessEqual"
  | always => "Always"

/-- Factors of a blend equation. -/
inductive BlendFactor where
  | zero
  | one
  | srcAlpha
  | invSrcAlpha
  deriving Repr, DecidableEq

def BlendFactor.name : BlendFactor → String
  | zero => "Zero"
  | one => "One"
  | srcAlpha => "SrcAlpha"
  | invSrcAlpha => "InvSrcAlpha"

/-- Additive blending of source and destination. -/
structure Blending where
  srcColor : BlendFactor
  dstColor : BlendFactor
  srcAlpha : BlendFactor
  dstAlpha : BlendFactor
  deriving Repr, DecidableEq

/-- The source weighted by its alpha, the destination by what is left. -/
def Blending.alpha : Blending := ⟨.srcAlpha, .invSrcAlpha, .one, .invSrcAlpha⟩

/-- Use of the depth buffer. -/
structure DepthState where
  format : PixelFormat
  enabled : Bool
  write : Bool
  test : DepthTest
  deriving Repr, DecidableEq

/-- One render target; without blending the source replaces what it holds. -/
structure RenderTarget where
  format : PixelFormat
  blending : Option Blending
  deriving Repr, DecidableEq

/-- The state of a graphics pipeline that draws triangle lists. -/
structure PipelineDescriptor where
  label : String
  vertex : Bytecode
  fragment : Bytecode
  inputs : InputLayout
  cull : CullMode
  counterClockwise : Bool
  depth : DepthState
  targets : List RenderTarget
  deriving Repr, DecidableEq

end SurfaceShading
