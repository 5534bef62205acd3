/-
  The events that the library reports while it works, with their severity and wording.
-/
import SurfaceShading.Error
import SurfaceShading.Shader.Definition

namespace SurfaceShading

/-- How much an event matters. -/
inductive Severity where
  | trace
  | debug
  | info
  | warn
  | error
  deriving Repr, DecidableEq

namespace Severity

def name : Severity → String
  | trace => "trace"
  | debug => "debug"
  | info => "info"
  | warn => "warn"
  | error => "error"

/-- Severities by weight. -/
def rank : Severity → Nat
  | trace => 0
  | debug => 1
  | info => 2
  | warn => 3
  | error => 4

end Severity

/-- Something worth reporting. -/
inductive Event where
  | started (version : String)
  | deviceCompiles (entry : String) (stage : Stage)
  | deviceCreatesPipeline (label : String)
  | deviceCreatesBuffer (label : String) (size : Nat)
  | deviceCreatesTexture (descriptor : TextureDescriptor)
  | writeToUnknownBuffer (buffer : Handle)
  | modelDropped (shader : String) (error : ParseError)
  | lightingAppended (shader pass source : String)
  | invalidDefault (property : String) (error : ValueError)
  | modelRegistered (id : UInt32) (call : String)
  | modelConflict (id : UInt32) (kept ignored : String)
  | freeOutOfRange (index : Nat)
  | doubleFree (index : Nat)
  | noDefaultSlot (capacity : Nat) (dimension : TextureDimension)
  | tableFull (capacity : Nat) (path : String)
  | textureNotLoaded (path : String) (error : DeviceError)
  | textureBound (path : String) (dimension : TextureDimension) (slot : Nat)
  | textureLoaded (path : String) (width height : UInt32) (dimension : TextureDimension)
  | productOverflows
  | artifactWritten (path : String)
  | artifactNotWritten (path : String) (error : FileError)
  | artifactRemoved (path : String)
  | artifactNotRemoved (path : String) (error : FileError)
  | compileFailed (shader : String) (pass : Nat) (stage : Stage) (diagnostic : String)
  | shaderCompiled (shader : String) (passes : Nat) (size : UInt32)
  | parseFailed (shader : String) (error : ParseError)
  | nameDiffers (key declared : String)
  | shaderLoaded (key : String) (queue : RenderQueue) (passes : Nat)
  | shaderCached (key : String)
  | shadersRegistered (count : Nat)
  | lightingRegenerated (passes models : Nat)
  | regenerationFailed (error : Error)
  | entryRejected (material : String) (error : Error)
  | materialSaved (material path : String)
  | materialCached (name : String)
  | materialLoaded (name shader : String) (pending : Bool)
  | shutDown (materials shaders : Nat)
  deriving Repr, DecidableEq

namespace Event

def severity : Event → Severity
  | started _ => .info
  | deviceCompiles _ _ => .trace
  | deviceCreatesPipeline _ => .trace
  | deviceCreatesBuffer _ _ => .trace
  | deviceCreatesTexture _ => .trace
  | writeToUnknownBuffer _ => .warn
  | modelDropped _ _ => .warn
  | lightingAppended _ _ _ => .debug
  | invalidDefault _ _ => .warn
  | modelRegistered _ _ => .info
  | modelConflict _ _ _ => .warn
  | freeOutOfRange _ => .warn
  | doubleFree _ => .warn
  | noDefaultSlot _ _ => .warn
  | tableFull _ _ => .error
  | textureNotLoaded _ _ => .error
  | textureBound _ _ _ => .debug
  | textureLoaded _ _ _ _ => .info
  | productOverflows => .error
  | artifactWritten _ => .debug
  | artifactNotWritten _ _ => .warn
  | artifactRemoved _ => .debug
  | artifactNotRemoved _ _ => .warn
  | compileFailed _ _ _ _ => .error
  | shaderCompiled _ _ _ => .info
  | parseFailed _ _ => .error
  | nameDiffers _ _ => .warn
  | shaderLoaded _ _ _ => .info
  | shaderCached _ => .debug
  | shadersRegistered _ => .info
  | lightingRegenerated _ _ => .info
  | regenerationFailed _ => .error
  | entryRejected _ _ => .warn
  | materialSaved _ _ => .info
  | materialCached _ => .debug
  | materialLoaded _ _ _ => .info
  | shutDown _ _ => .info

/-- Whether the program breaks off there. -/
def isFault : Event → Bool
  | productOverflows => true
  | _ => false

/-- A label in a report of the device: it may be missing. -/
def describeLabel : Option String → String
  | some label => s!"Some({Text.quoted label})"
  | none => "None"

def text : Event → String
  | started version => s!"Material Pipeline v{version} initialized"
  | deviceCompiles entry stage => s!"DummyDevice: compiling {entry} ({stage.profile})"
  | deviceCreatesPipeline label =>
    s!"DummyDevice: creating pipeline {describeLabel (some label)}"
  | deviceCreatesBuffer label size =>
    s!"DummyDevice: creating buffer {describeLabel (some label)} (size: {size})"
  | deviceCreatesTexture d =>
    s!"DummyDevice: creating texture {describeLabel d.label} "
      ++ s!"({d.width}x{d.height}, {d.dimension.name})"
  | writeToUnknownBuffer buffer => s!"DummyDevice: write to unknown buffer {buffer}"
  | modelDropped shader error =>
    s!"shader {Text.quoted shader}: ignoring malformed ShadingModel block ({error.display})"
  | lightingAppended shader pass source =>
    s!"shader {Text.quoted shader}: appended lighting pass {Text.quoted pass} "
      ++ s!"from {Text.quoted source}"
  | invalidDefault property error =>
    s!"property {Text.quoted property}: invalid default ({error.message}), using zero"
  | modelRegistered id call => s!"registered shading model {id} ({call})"
  | modelConflict id kept ignored =>
    s!"shading model {id} already registered as {Text.quoted kept}; "
      ++ s!"ignoring {Text.quoted ignored}"
  | freeOutOfRange index => s!"bindless free of out-of-range index {index}"
  | doubleFree index => s!"bindless double free of index {index}"
  | noDefaultSlot capacity dimension =>
    s!"bindless table of {capacity} slots has no {dimension.name} default"
  | tableFull capacity path =>
    s!"bindless table full ({capacity} slots); {path} uses the default texture"
  | textureNotLoaded path error =>
    s!"failed to load texture {path}: {error.message}; using default"
  | textureBound path dimension slot =>
    s!"texture {path} ({dimension.name}) -> bindless slot {slot}"
  | textureLoaded path width height dimension =>
    s!"loaded texture {path} ({width}x{height}, {dimension.name})"
  | productOverflows => "attempt to multiply with overflow"
  | artifactWritten path => s!"wrote generated source {path}"
  | artifactNotWritten path error => s!"could not write {path}: {error.message}"
  | artifactRemoved path => s!"removed stale source {path}"
  | artifactNotRemoved path error => s!"could not remove {path}: {error.message}"
  | compileFailed shader pass stage diagnostic =>
    s!"shader {Text.quoted shader} pass {pass} ({stage.name}) failed to compile: {diagnostic}"
  | shaderCompiled shader passes size =>
    s!"compiled shader {Text.quoted shader} ({passes} passes, {size} byte constant buffer)"
  | parseFailed shader error =>
    s!"failed to parse shader {Text.quoted shader}: {error.display}"
  | nameDiffers key declared =>
    s!"shader file {Text.quoted key} declares name {Text.quoted declared}; "
      ++ s!"caching it as {Text.quoted key}"
  | shaderLoaded key queue passes =>
    s!"loaded shader {Text.quoted key} ({queue.name}, {passes} passes)"
  | shaderCached key => s!"shader cache hit: {key}"
  | shadersRegistered count => s!"registered {count} shaders"
  | lightingRegenerated passes models =>
    s!"regenerated {passes} lighting passes for {models} shading models"
  | regenerationFailed error => s!"lighting regeneration failed: {error.message}"
  | entryRejected material error => s!"material {Text.quoted material}: {error.message}"
  | materialSaved material path => s!"saved material {Text.quoted material} to {path}"
  | materialCached name => s!"material cache hit: {name}"
  | materialLoaded name shader pending =>
    let tail := if pending then ", textures pending" else ""
    s!"loaded material {Text.quoted name} ({shader}){tail}"
  | shutDown materials shaders =>
    s!"material pipeline shut down ({materials} materials, {shaders} shaders)"

end Event

end SurfaceShading
