/-
  Shaders with their compiled passes. What a shader declares never changes; its passes are
  compiled, and compiled anew when the shading models change.
-/
import SurfaceShading.Host
import SurfaceShading.Shader.Artifact
import SurfaceShading.Shader.Source

namespace SurfaceShading

/-- A declared shader with its layout. Every pass of the shared shader lights. -/
structure Shader where
  definition : Definition
  layout : Layout
  shared : Bool
  deriving Repr, DecidableEq

/-- The source of a pass, its compiled stages, and its pipeline once that is made. -/
structure CompiledPass where
  source : String
  vertex : Bytecode
  fragment : Bytecode
  pipeline : Option Handle
  deriving Repr, DecidableEq

/-- Identifies a shader object: no two objects have one number. -/
abbrev ShaderId := Nat

/-- A shader and the state of its passes. -/
structure ShaderObject where
  id : ShaderId
  shader : Shader
  passes : List (Option CompiledPass)
  deriving Repr, DecidableEq

/-- The options of generated sources, and the directory they are written to. -/
structure CompileTarget where
  options : SourceOptions
  cacheDirectory : Option String
  deriving Repr, DecidableEq

namespace Shader

/-- What is reported when a layout is made: defaults that are no value of their type. -/
def layoutEvents (properties : List Property) : List Event :=
  properties.filterMap fun p => p.defaultError?.map (.invalidDefault p.name)

/-- A shader of a definition, unless its constant buffer is above a limit. -/
def ofDefinition (definition : Definition) (shared : Bool) (limit : UInt32) :
    Except Error Shader :=
  let layout := Layout.ofProperties definition.properties
  if layout.size > limit then .error (.layout definition.name layout.size limit)
  else .ok ⟨definition, layout, shared⟩

def name (s : Shader) : String := s.definition.name

def passCount (s : Shader) : Nat := s.definition.passes.length

/-- The parameter of a name. -/
def parameter? (s : Shader) (name : String) : Option Parameter := s.layout.parameter? name

/-- The size of the constant buffer in bytes. -/
def bufferSize (s : Shader) : Nat := s.layout.size.toNat

/-- The role of a pass. -/
def passKind? (s : Shader) (index : Nat) : Option PassKind :=
  if index < s.passCount then PassKind.resolve s.definition.queue index s.shared else none

/-- The passes whose source holds the dispatch over the shading models. -/
def lightingPasses (s : Shader) : List Nat :=
  (List.range s.passCount).filter fun i => (s.passKind? i).any PassKind.usesModels

/-- The role of a pass, or the error of a pass without one. -/
def requireKind (s : Shader) (index : Nat) : Except Error PassKind :=
  match s.passKind? index with
  | some kind => .ok kind
  | none => .error (.unsupportedPass s.name index)

/-- The source of a pass. -/
def source (s : Shader) (index : Nat) (models : List ShadingModel) (options : SourceOptions) :
    Except Error String := do
  let kind ← s.requireKind index
  .ok (Source.generate s.definition index kind s.layout.parameters models options)

/-- The name of a pass; nothing for a pass that is not there. -/
def passName (s : Shader) (index : Nat) : String :=
  match s.definition.passes[index]? with
  | some pass => pass.name
  | none => ""

/-- The file of the source of a pass below the cache directory. -/
def artifactName (s : Shader) (index : Nat) : String :=
  Artifact.sourceName s.name index (s.passName index)

/-- The file of the compiler's report on a pass below the cache directory. -/
def reportName (s : Shader) (index : Nat) : String := Artifact.reportName s.name index

end Shader

/-- Writes a text file with the directories above it. -/
def writeArtifact (path text : String) : HostM (Except FileError Unit) :=
  modifyGet fun host =>
    let (disk, result) := host.disk.writeBelow path (Text.utf8 text)
    (result, { host with disk := disk })

namespace ShaderObject

/-- An object whose passes are not compiled. -/
def new (id : ShaderId) (shader : Shader) : ShaderObject :=
  ⟨id, shader, List.replicate shader.passCount none⟩

/-- The compiled state of a pass. -/
def compiled? (o : ShaderObject) (index : Nat) : Option CompiledPass :=
  (o.passes[index]?).join

/-- Whether every pass is compiled. -/
def isCompiled (o : ShaderObject) : Bool := o.passes.all Option.isSome

/-- The pipeline of a pass. -/
def pipeline? (o : ShaderObject) (index : Nat) : Option Handle :=
  (o.compiled? index).bind CompiledPass.pipeline

/-- The source that a pass was compiled from. -/
def source? (o : ShaderObject) (index : Nat) : Option String :=
  (o.compiled? index).map CompiledPass.source

/-- Gives a pass a compiled state. -/
def setPass (o : ShaderObject) (index : Nat) (pass : CompiledPass) : ShaderObject :=
  { o with passes := o.passes.set index (some pass) }

/-- Writes the report on a stage that does not compile. Gives the path of the report; none if
it cannot be written or no report is wanted. -/
def writeReport (shader : Shader) (target : CompileTarget) (index : Nat)
    (diagnostic source : String) : HostM (Option String) := do
  match target.cacheDirectory with
  | none => pure none
  | some dir =>
    let path := Path.join dir (shader.reportName index)
    match ← writeArtifact path (diagnostic ++ "\n\n" ++ source) with
    | .ok () => pure (some path)
    | .error e =>
      report (.artifactNotWritten path e)
      pure none

/-- Compiles one stage of a pass. -/
def compileStage (shader : Shader) (target : CompileTarget) (index : Nat)
    (source entry : String) (stage : Stage) : HostM (Except Error Bytecode) := do
  match ← Device.compile source entry stage with
  | .ok bytecode => pure (.ok bytecode)
  | .error e =>
    let artifact ← writeReport shader target index e.message source
    report (.compileFailed shader.name index stage e.message)
    pure (.error (.compile shader.name index stage e.message artifact))

/-- Writes the source of a pass to the cache directory, if there is one. -/
def writeSource (shader : Shader) (target : CompileTarget) (index : Nat) (source : String) :
    HostM (Except Error Unit) := do
  match target.cacheDirectory with
  | none => pure (.ok ())
  | some dir =>
    let path := Path.join dir (shader.artifactName index)
    match ← writeArtifact path source with
    | .error e => pure (.error (.file e))
    | .ok () =>
      report (.artifactWritten path)
      pure (.ok ())

/-- Generates, writes and compiles a pass. The pass has no pipeline afterwards. -/
def compilePass (index : Nat) (models : List ShadingModel) (target : CompileTarget) :
    Attempt ShaderObject Unit := do
  let shader := (← get).shader
  let source ← Attempt.ofExcept (shader.source index models target.options)
  match shader.definition.passes[index]? with
  | none => throw (.unsupportedPass shader.name index)
  | some pass =>
    ExceptT.mk (liftM (writeSource shader target index source))
    let vertex ← ExceptT.mk (liftM (compileStage shader target index source pass.vertex .vertex))
    let fragment ←
      ExceptT.mk (liftM (compileStage shader target index source pass.fragment .fragment))
    modify fun o => o.setPass index ⟨source, vertex, fragment, none⟩

/-- Compiles passes in order, up to the first that fails. -/
def compilePasses (models : List ShadingModel) (target : CompileTarget) :
    List Nat → Attempt ShaderObject Unit
  | [] => pure ()
  | index :: rest => do
    compilePass index models target
    compilePasses models target rest

/-- Compiles all passes. -/
def compile (models : List ShadingModel) (target : CompileTarget) :
    Attempt ShaderObject Unit := do
  let shader := (← get).shader
  compilePasses models target (List.range shader.passCount)
  report (.shaderCompiled shader.name shader.passCount shader.layout.size)

/-- Makes the pipeline of a compiled pass. -/
def createPipeline (index : Nat) : Attempt ShaderObject Handle := do
  let o ← get
  let kind ← Attempt.ofExcept (o.shader.requireKind index)
  match o.compiled? index with
  | none => throw (.notCompiled o.shader.name index)
  | some pass =>
    let label := o.shader.name ++ "/" ++ o.shader.passName index
    let handle ← Attempt.ofDevice
      (Device.createPipeline (kind.pipeline label pass.vertex pass.fragment))
    modify fun o => o.setPass index { pass with pipeline := some handle }
    pure handle

/-- Makes the pipelines of passes in order, up to the first that fails. -/
def createPipelinesOf : List Nat → Attempt ShaderObject Unit
  | [] => pure ()
  | index :: rest => do
    let _ ← createPipeline index
    createPipelinesOf rest

/-- Makes the pipelines of all passes. -/
def createPipelines : Attempt ShaderObject Unit := do
  createPipelinesOf (List.range (← get).shader.passCount)

/-- Compiles all passes and makes their pipelines. -/
def build (models : List ShadingModel) (target : CompileTarget) : Attempt ShaderObject Unit := do
  compile models target
  createPipelines

/-- Compiles passes anew, each with its pipeline. Gives the number of passes. -/
def rebuildPasses (models : List ShadingModel) (target : CompileTarget) :
    List Nat → Attempt ShaderObject Nat
  | [] => pure 0
  | index :: rest => do
    compilePass index models target
    let _ ← createPipeline index
    pure ((← rebuildPasses models target rest) + 1)

/-- Compiles the lighting passes anew. -/
def rebuildLighting (models : List ShadingModel) (target : CompileTarget) :
    Attempt ShaderObject Nat := do
  rebuildPasses models target (← get).shader.lightingPasses

end ShaderObject

namespace Shader

/-- Removes the source file of a pass, if it is there. -/
def removeArtifact (s : Shader) (directory : String) (index : Nat) : HostM Unit := do
  let path := Path.join directory (s.artifactName index)
  match (← get).disk.remove path with
  | .ok disk =>
    modify fun host => { host with disk := disk }
    report (.artifactRemoved path)
  | .error .notFound => pure ()
  | .error e => report (.artifactNotRemoved path e)

/-- Removes the source files of passes. -/
def removeArtifacts (s : Shader) (directory : String) : List Nat → HostM Unit
  | [] => pure ()
  | index :: rest => do
    s.removeArtifact directory index
    s.removeArtifacts directory rest

end Shader

end SurfaceShading
