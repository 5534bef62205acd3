/-
  What a pass renders, and the state of the pipeline that it renders with.
-/
import SurfaceShading.Shader.Definition

namespace SurfaceShading

/-- The roles of passes: geometry into the geometry buffer, lighting of the whole screen, or
geometry that is lit as it is drawn. -/
inductive PassKind where
  | gbuffer
  | lighting
  | forward
  deriving Repr, DecidableEq

namespace PassKind

def name : PassKind → String
  | gbuffer => "GBuffer"
  | lighting => "Lighting"
  | forward => "Forward"

/-- The role of the pass at an index. Every pass of the shared lighting shader lights; a
deferred shader has a geometry pass and a lighting pass and no other. -/
def resolve (queue : RenderQueue) (index : Nat) (shared : Bool) : Option PassKind :=
  if shared then some lighting
  else
    match queue, index with
    | .deferred, 0 => some gbuffer
    | .deferred, 1 => some lighting
    | .deferred, _ => none
    | .forward, _ => some forward

/-- Whether the source of the pass holds the dispatch over the shading models. -/
def usesModels : PassKind → Bool
  | lighting => true
  | _ => false

/-- The formats of the geometry buffer: albedo, normal, surface, motion. -/
def gbufferFormats : List PixelFormat := [.rgba8UnormSrgb, .rgba16Float, .rgba8Unorm, .rg16Float]

/-- The format of lit color. -/
def litFormat : PixelFormat := .rgba16Float

/-- The format of depth. -/
def depthFormat : PixelFormat := .depth32Float

/-- Solid geometry is tested against the depth buffer and written to it. -/
def solidDepth : DepthState := ⟨depthFormat, true, true, .lessEqual⟩

/-- The pipeline of a pass with compiled stages. -/
def pipeline (kind : PassKind) (label : String) (vertex fragment : Bytecode) :
    PipelineDescriptor :=
  match kind with
  | gbuffer =>
    ⟨label, vertex, fragment, .mesh, .back, true, solidDepth, gbufferFormats.map (⟨·, none⟩)⟩
  | lighting =>
    ⟨label, vertex, fragment, .screen, .none, true, ⟨depthFormat, false, false, .always⟩,
      [⟨litFormat, some .alpha⟩]⟩
  | forward =>
    ⟨label, vertex, fragment, .mesh, .back, true, solidDepth, [⟨litFormat, none⟩]⟩

end PassKind

end SurfaceShading
