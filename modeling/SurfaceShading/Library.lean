/-
  The library of shaders and materials. Shaders are read and their shading models registered
  before anything is compiled, so that every lighting pass is compiled for all models. A model
  that comes later makes the lighting passes of all compiled shaders be compiled anew.
-/
import SurfaceShading.Config
import SurfaceShading.Material.Basic
import SurfaceShading.Shader.Completion
import SurfaceShading.Shader.Registry

namespace SurfaceShading

/-- A shader of the library, and whether it was built as a whole. -/
structure ShaderEntry where
  object : ShaderObject
  built : Bool
  deriving Repr, DecidableEq

/-- All shaders and materials, by the names they were asked for. The pending shaders are read
and registered, and wait for their first build. -/
structure Library where
  config : Config
  sources : ShaderSources
  registry : ModelRegistry
  shaders : OrderedMap String ShaderEntry
  nextShader : ShaderId
  pending : List String
  materials : OrderedMap String Material
  textures : TextureTable
  deriving Repr, DecidableEq

namespace Library

/-- A library that holds nothing. -/
def new (config : Config) (textures : TextureTable) : Library :=
  ⟨config, .new config.shaderDirectory, .new, .empty, 0, [], .empty, textures⟩

/-- Makes a library, with a report for each default slot that its table of textures lacks. -/
def create (config : Config) : HostM Library := do
  let textures ← TextureTable.create config.capacity.toNat config.baseRegister.toNat
  pure (new config textures)

/-- The object of a shader. -/
def shader? (l : Library) (name : String) : Option ShaderObject :=
  (l.shaders.get? name).map ShaderEntry.object

/-- The object of a shader that was built. -/
def built? (l : Library) (name : String) : Option ShaderObject :=
  (l.shaders.get? name).bind fun e => if e.built then some e.object else none

/-- The shaders that were built, in the order of their names. -/
def builtShaders (l : Library) : OrderedMap String ShaderEntry :=
  l.shaders.filter fun _ e => e.built

/-- How sources are generated and where they are written. -/
def compileTarget (l : Library) : CompileTarget :=
  ⟨l.config.sourceOptions, l.config.cacheDirectory⟩

/-! ## Parts of a library -/

/-- Work on the registry. -/
def onRegistry (change : ModelRegistry → Except RegistryConflict ModelRegistry) :
    Attempt Library Unit := do
  match change (← get).registry with
  | .ok registry => modify fun l => { l with registry := registry }
  | .error conflict => throw (.registryBusy conflict)

/-- An attempt on the object of a shader, which keeps what it came to when it fails. There is
no object for an unknown name, and nothing to do. -/
def onShader {α : Type} (name : String) (none : α) (attempt : Attempt ShaderObject α) :
    Attempt Library α :=
  ExceptT.mk do
    match (← get).shaders.get? name with
    | .none => pure (.ok none)
    | some entry =>
      let (result, object) ← liftM (attempt.run.run entry.object)
      modify fun l => { l with shaders := l.shaders.insert name { entry with object := object } }
      pure result

/-- Marks a shader as built. -/
def markBuilt (name : String) : Attempt Library Unit :=
  modify fun l =>
    match l.shaders.get? name with
    | some entry => { l with shaders := l.shaders.insert name { entry with built := true } }
    | none => l

/-- An attempt on a material of the library. -/
def onMaterial {α : Type} (name : String) (m : Material) (attempt : Attempt Material α) :
    Attempt Library α :=
  ExceptT.mk do
    let (result, changed) ← liftM (attempt.run.run m)
    modify fun l => { l with materials := l.materials.insert name changed }
    pure result

/-! ## Reading shaders -/

/-- Reads the source of a shader and completes what it declares. -/
def readDefinition (name : String) : Attempt Library Definition := do
  let l ← get
  let disk := (← getThe Host).disk
  match l.sources.read disk name with
  | .error e => throw (.ofSource e)
  | .ok text =>
    let shared := l.config.sharedShader
    let reading := Definition.parseComplete text shared (l.sources.read disk shared)
    reportAll reading.events
    match reading.result with
    | .error e =>
      report (.parseFailed name e)
      throw (.parse name e)
    | .ok definition => pure definition

/-- Removes the sources of the lighting passes of all shaders that were built: they are out of
date. Their pipelines stay in use until they are replaced. -/
def removeLightingArtifacts : Work Library Unit := do
  let l ← get
  match l.config.cacheDirectory with
  | none => pure ()
  | some directory =>
    l.builtShaders.values.forM fun e =>
      e.object.shader.removeArtifacts directory e.object.shader.lightingPasses

/-- Registers a shading model. One with a new number makes the generated lighting passes out of
date. -/
def registerModel (model : ShadingModel) : Attempt Library Unit := do
  let l ← get
  reportAll (l.registry.registerEvents model)
  match l.registry.register model with
  | .error conflict => throw (.registryBusy conflict)
  | .ok (isNew, registry) =>
    set { l with registry := registry }
    if isNew then removeLightingArtifacts

/-- Takes a shader of a definition into the library, pending. -/
def addShader (name : String) (definition : Definition) : Attempt Library Unit := do
  let l ← get
  if definition.name ≠ name then report (.nameDiffers name definition.name)
  reportAll (Shader.layoutEvents definition.properties)
  let shader ← Attempt.ofExcept
    (Shader.ofDefinition definition (name == l.config.sharedShader) l.config.bufferLimit)
  match definition.model with
  | some model => registerModel model
  | none => pure ()
  report (.shaderLoaded name definition.queue shader.passCount)
  modify fun l => { l with
    shaders := l.shaders.insert name ⟨.new l.nextShader shader, false⟩
    nextShader := l.nextShader + 1
    pending := l.pending ++ [name] }

/-- Reads a shader and registers its shading model, unless it is known. -/
def ensureShader (name : String) : Attempt Library Unit := do
  if ((← get).shader? name).isNone then
    addShader name (← readDefinition name)

/-- Reads and registers shaders in order, up to the first that fails. Gives their number. -/
def ensureShaders : List String → Attempt Library Nat
  | [] => pure 0
  | name :: rest => do
    ensureShader name
    pure ((← ensureShaders rest) + 1)

/-- Registers shaders. Those before a failing one stay registered. -/
def registerShaders (names : List String) : Attempt Library Nat := do
  onRegistry ModelRegistry.beginRegistration
  let result ← liftM (ensureShaders names).run
  modify fun l => { l with registry := l.registry.endRegistration }
  Attempt.ofExcept result

/-- Registers all shaders that have a source. -/
def registerAll : Attempt Library Nat := do
  let l ← get
  registerShaders (l.sources.names (← getThe Host).disk)

/-! ## Building shaders -/

/-- Compiles the lighting passes of shaders anew, up to the first failure. Gives the number of
passes. -/
def rebuildLighting (models : List ShadingModel) : List String → Attempt Library Nat
  | [] => pure 0
  | name :: rest => do
    let target := (← get).compileTarget
    let count ← onShader name 0 (ShaderObject.rebuildLighting models target)
    pure (count + (← rebuildLighting models rest))

/-- Compiles the lighting passes of all shaders that were built, some apart, for the models
that are registered. Gives the number of passes. -/
def regenerateExcept (skipped : List String) : Attempt Library Nat := do
  onRegistry ModelRegistry.beginRegeneration
  let l ← get
  let models := l.registry.models
  let names := l.builtShaders.keys.filter fun name => !skipped.contains name
  match ← liftM (rebuildLighting models names).run with
  | .ok count =>
    modify fun l => { l with registry := l.registry.finishRegeneration }
    if 0 < count then report (.lightingRegenerated count models.length)
    pure count
  | .error e =>
    modify fun l => { l with registry := l.registry.abortRegeneration }
    throw e

/-- Compiles the lighting passes of all shaders that were built. -/
def regenerate : Attempt Library Nat := regenerateExcept []

/-- Builds a shader for the models that are registered. -/
def buildShader (name : String) : Attempt Library Unit := do
  let l ← get
  onShader name () (ShaderObject.build l.registry.models l.compileTarget)
  markBuilt name

/-- Builds shaders in order. When one fails, those after it stay pending. -/
def buildAll : List String → Attempt Library Unit
  | [] => pure ()
  | name :: rest => do
    match ← liftM (buildShader name).run with
    | .ok () => buildAll rest
    | .error e =>
      modify fun l => { l with pending := rest }
      throw e

/-- Names in the order in which they are built: the shared shader comes last. -/
def buildOrder (shared : String) (names : List String) : List String :=
  names.filter (· ≠ shared) ++ names.filter (· = shared)

/-- Builds all pending shaders, then brings the lighting passes of the others up to date. -/
def compilePending : Attempt Library Unit := do
  let l ← get
  let names := buildOrder l.config.sharedShader l.pending
  set { l with pending := [] }
  buildAll names
  if (← get).registry.dirty then
    let _ ← regenerateExcept names

/-- Registers all shaders that have a source, then builds them. -/
def loadAll : Attempt Library Unit := do
  let count ← registerAll
  report (.shadersRegistered count)
  compilePending

/-- Brings the lighting passes of all shaders but one up to date after the build of that one.
A failure to do so is the answer only if the build did not fail. -/
def settle (name : String) (built : Except Error Unit) : Attempt Library Unit := do
  if (← get).registry.dirty then
    match built, ← liftM (regenerateExcept [name]).run with
    | .ok (), .error e => throw e
    | .error _, .error e => report (.regenerationFailed e)
    | _, .ok _ => pure ()
  Attempt.ofExcept built

/-- Reads and builds a shader that was not built yet. A model that it registered counts even
when it does not compile. -/
def loadNew (name : String) : Attempt Library Unit := do
  ensureShader name
  modify fun l => { l with pending := l.pending.filter (· ≠ name) }
  let built ← liftM (buildShader name).run
  settle name built

/-- The object of a shader of the library. -/
def requireShader (name : String) : Attempt Library ShaderObject := do
  match (← get).shader? name with
  | some object => pure object
  | none => throw (.shaderNotFound name)

/-- Loads a shader, unless it was built before. -/
def loadShader (name : String) : Attempt Library ShaderObject := do
  match (← get).built? name with
  | some object =>
    report (.shaderCached name)
    pure object
  | none =>
    loadNew name
    requireShader name

/-! ## Materials -/

/-- Keeps a material. -/
def keepMaterial (m : Material) : Attempt Library Unit :=
  modify fun l => { l with materials := l.materials.insert m.name m }

/-- An attempt on a material that is not kept yet. -/
def prepare (m : Material) (attempt : Attempt Material Unit) : Attempt Library Material :=
  ExceptT.mk do
    let (result, changed) ← liftM (attempt.run.run m)
    pure (result.map fun () => changed)

/-- Resolves the textures of a material in the table of the library. -/
def prepareTextures (m : Material) : Attempt Library Material :=
  ExceptT.mk do
    let l ← get
    let (result, changed, textures) ← liftM (Material.loadTextures.run.run (m, l.textures))
    set { l with textures := textures }
    pure (result.map fun () => changed)

/-- Makes the default textures. -/
def ensureDefaultTextures : Attempt Library Unit :=
  Attempt.focus Library.textures (fun l textures => { l with textures := textures })
    TextureTable.ensureDefaults

/-- The material of a name; if there is none, a new one that sets nothing. -/
def createMaterial (name shader : String) : Attempt Library Material := do
  match (← get).materials.get? name with
  | some m => pure m
  | none =>
    let object ← loadShader shader
    let m ← prepare (.new name object.id object.shader) Material.update
    keepMaterial m
    pure m

/-- Makes a material of a file. With a command list, its textures are loaded; without one they
stay pending. -/
def ofFile (file : MaterialFile) (commands : Bool) : Attempt Library Material := do
  let object ← loadShader file.shader
  let m ← prepare (.new file.name object.id object.shader) do
    Material.applyFile file
    Material.createBuffer
  let m ← if commands then do
      ensureDefaultTextures
      prepareTextures m
    else prepare m Material.update
  report (.materialLoaded file.name file.shader m.pending)
  keepMaterial m
  pure m

/-- Loads the material of a file, unless one of its name is there. -/
def loadMaterial (path : String) (commands : Bool) : Attempt Library Material := do
  let disk := (← getThe Host).disk
  let header ← Attempt.ofExcept (MaterialHeader.load disk path)
  match (← get).materials.get? header.name with
  | some m =>
    report (.materialCached header.name)
    pure m
  | none => ofFile (← Attempt.ofExcept (MaterialFile.load disk path)) commands

/-- Resolves the textures of a material of the library. The material keeps what came of it
when that fails. -/
def resolveMaterial (name : String) (m : Material) : Attempt Library Unit :=
  ExceptT.mk do
    let l ← get
    let (result, changed, textures) ← liftM (Material.loadTextures.run.run (m, l.textures))
    set { l with textures := textures, materials := l.materials.insert name changed }
    pure result

/-- Resolves the textures of materials in order, up to the first failure. Gives the number of
materials that were pending. -/
def resolveAll : List (String × Material) → Attempt Library Nat
  | [] => pure 0
  | (name, m) :: rest => do
    if m.pending then
      resolveMaterial name m
      pure ((← resolveAll rest) + 1)
    else resolveAll rest

/-- Resolves the textures of all pending materials. -/
def resolvePending : Attempt Library Nat := do
  ensureDefaultTextures
  resolveAll (← get).materials.entries

/-- The name of the default material of a shader. -/
def defaultName (shader : String) : String := shader ++ "_Default"

/-- Makes the default materials of shaders that have none. Gives the names of the new ones. -/
def createDefaultsOf : List String → Attempt Library (List String)
  | [] => pure []
  | shader :: rest => do
    let name := defaultName shader
    if (← get).materials.contains name then createDefaultsOf rest
    else
      let _ ← createMaterial name shader
      pure (name :: (← createDefaultsOf rest))

/-- Makes a default material for every shader that was built, infrastructure apart. -/
def createDefaults : Attempt Library (List String) := do
  let l ← get
  createDefaultsOf (l.builtShaders.keys.filter fun name => !l.config.isInfrastructure name)

/-- Binds a material to the root slot of the settings. -/
def bindMaterial (name : String) (m : Material) : Attempt Library Unit := do
  onMaterial name m (Material.bind (← get).config.rootSlot)

/-- Saves the material of a name. -/
def saveMaterial (name path : String) : Attempt Library Unit := do
  match (← get).materials.get? name with
  | some m => ExceptT.mk (liftM (m.save path))
  | none => throw (.materialNotFound name)

/-- Frees the slots of a texture path. The materials that use it are not changed. -/
def releaseTexture (path : String) : Work Library Bool :=
  Work.focus Library.textures (fun l textures => { l with textures := textures })
    (TextureTable.release path)

/-- Destroys the buffers of all materials, frees all slots and forgets all shaders. The
registered shading models stay. -/
def shutdown : Work Library Unit := do
  let l ← get
  l.materials.values.forM fun m => do
    let _ ← liftM (Material.release.run m)
  report (.shutDown l.materials.size l.shaders.size)
  modify fun l => { l with materials := .empty, shaders := .empty, pending := [] }
  Work.focus Library.textures (fun l textures => { l with textures := textures })
    TextureTable.clear

end Library

end SurfaceShading
