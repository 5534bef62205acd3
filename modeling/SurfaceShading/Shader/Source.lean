/-
  Generated native source: declarations of the scene, of the material constants and of the
  texture table, the inputs of the kind of pass, and the code of the pass itself.
-/
import SurfaceShading.Shader.Dispatch
import SurfaceShading.Shader.Layout
import SurfaceShading.Shader.NativeCode
import SurfaceShading.Shader.PassKind
import SurfaceShading.Shader.SceneConstants

namespace SurfaceShading

/-- The size of the texture table and its first register. -/
structure SourceOptions where
  capacity : UInt32
  baseRegister : UInt32
  deriving Repr, DecidableEq

/-- The table of a thousand and twenty-four textures behind sixteen other registers. -/
def SourceOptions.standard : SourceOptions := ⟨1024, 16⟩

/-- The declaration of one field of the material constants: its type, its name, and the
register row and component at which it starts. -/
structure FieldDeclaration where
  nativeType : String
  field : String
  row : UInt32
  component : String
  deriving Repr, DecidableEq

namespace FieldDeclaration

/-- The field of a parameter. -/
def ofParameter (p : Parameter) : FieldDeclaration :=
  ⟨p.type.nativeName, p.fieldName, p.offset / registerSize, componentName p.offset.toNat⟩

/-- The line that declares the field. -/
def text (d : FieldDeclaration) : String :=
  s!"    {d.nativeType} {d.field} : packoffset(c{d.row}.{d.component});\n"

end FieldDeclaration

namespace Source

/-- The register of the material constants. -/
def materialRegister : Nat := 1

/-- The declaration of the material constants. -/
def materialConstants (parameters : List Parameter) : String :=
  if parameters.isEmpty then "// No material constants\n"
  else
    s!"cbuffer MaterialConstants : register(b{materialRegister})\n" ++ "\x7b\n"
      ++ String.join (parameters.map fun p => (FieldDeclaration.ofParameter p).text) ++ "\x7d;\n"

/-- The table that a texture of some shape is read from. The two tables lie over one range of
descriptors, and a slot holds a view of the shape that it was acquired with. -/
def tableName : TextureDimension → String
  | .d2 => "BindlessTextures"
  | .cube => "BindlessCubeTextures"

/-- How code reads a texture parameter. Values have no such lines. -/
def textureMacros (p : Parameter) : String :=
  match p.content with
  | .value _ => ""
  | .texture dimension _ =>
    s!"// {p.name} (t{p.register})\n"
      ++ s!"#define TEXTURE_{p.name} {tableName dimension}"
      ++ s!"[NonUniformResourceIndex({p.fieldName})]\n"
      ++ s!"#define SAMPLE_{p.name}(uv) TEXTURE_{p.name}.Sample(LinearWrapSampler, uv)\n"

/-- Whether some parameter is a cube texture. -/
def hasCube (parameters : List Parameter) : Bool :=
  parameters.any fun p => p.type == .texture .cube

/-- The declaration of the texture table, and the macros of the texture parameters. -/
def textureTable (parameters : List Parameter) (options : SourceOptions) : String :=
  s!"#define BINDLESS_CAPACITY {options.capacity}\n"
    ++ s!"Texture2D BindlessTextures[BINDLESS_CAPACITY] : register(t{options.baseRegister}, space1);\n"
    ++ (if hasCube parameters then
        s!"TextureCube BindlessCubeTextures[BINDLESS_CAPACITY] : register(t{options.baseRegister}, space2);\n"
      else "")
    ++ String.join (parameters.map textureMacros)

/-- The number of the shading model that a geometry pass writes. Zero stands for none. -/
def modelId (definition : Definition) : UInt32 :=
  match definition.model with
  | some model => model.id
  | none => 0

/-- The inputs and outputs of a kind of pass. -/
def passInputs (definition : Definition) (kind : PassKind) (models : List ShadingModel) :
    String :=
  match kind with
  | .gbuffer =>
    s!"#define SHADING_MODEL_ID {modelId definition}\n\n" ++ NativeCode.gbufferOutput
  | .lighting =>
    NativeCode.gbufferInputs ++ NativeCode.environmentInputs ++ "\n"
      ++ NativeCode.lightingHelpers ++ "\n" ++ NativeCode.reflectance ++ "\n"
      ++ (Dispatch.ofModels models).text
  | .forward => NativeCode.environmentInputs ++ "\n" ++ NativeCode.reflectance

/-- The lines at the top of a source. -/
def header (shader : String) (index : Nat) (pass : String) (kind : PassKind) : String :=
  s!"// {shader} pass {index} {Text.quoted pass} ({kind.name})\n"
    ++ "// Generated source, rewritten on every build.\n\n"

/-- The source of one pass. -/
def generate (definition : Definition) (index : Nat) (kind : PassKind)
    (parameters : List Parameter) (models : List ShadingModel) (options : SourceOptions) :
    String :=
  let pass? := definition.passes[index]?
  let passName := match pass? with
    | some pass => pass.name
    | none => ""
  let body := match pass? with
    | some pass => "\n" ++ pass.body ++ "\n"
    | none => ""
  header definition.name index passName kind
    ++ SceneConstants.declaration ++ "\n"
    ++ materialConstants parameters ++ "\n"
    ++ textureTable parameters options ++ "\n"
    ++ NativeCode.samplers ++ "\n"
    ++ passInputs definition kind models
    ++ body

end Source

end SurfaceShading
