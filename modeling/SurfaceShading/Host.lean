/-
  The world outside: device, command recording, texture loader, disk, and the reports made to
  it. What an operation does there stays done when the operation fails.
-/
import SurfaceShading.Event
import SurfaceShading.Gpu.Device
import SurfaceShading.Texture.Data

namespace SurfaceShading

/-- One recorded texture upload. -/
structure Upload where
  texture : Handle
  data : List UInt8
  width : UInt32
  height : UInt32
  deriving Repr, DecidableEq

/-- The commands recorded so far: constant buffers bound to root slots, and uploads. -/
structure Commands where
  bound : List (UInt32 × Nat)
  uploads : List Upload
  deriving Repr, DecidableEq

/-- Where textures come from: made up for any path but the missing ones, or read from image
files below a root. -/
inductive Loader where
  | stub (missing requests : List String)
  | images (root : Option String)
  deriving Repr, DecidableEq

/-- The world outside. The program breaks off at an event that is a fault; what comes after one
in a run is no longer its work. -/
structure Host where
  device : Device
  commands : Commands
  loader : Loader
  disk : Disk
  events : List Event

/-- A host to which nothing has happened. -/
def Host.new (loader : Loader) (disk : Disk) : Host := ⟨.new, ⟨[], []⟩, loader, disk, []⟩

/-- Whether the program broke off. -/
def Host.brokenOff (h : Host) : Bool := h.events.any Event.isFault

instance : Inhabited Host := ⟨.new (.stub [] []) .empty⟩

/-- Work in the world outside that cannot fail. -/
abbrev HostM := StateM Host

/-- Work on a value in the world outside. -/
abbrev Work (σ : Type) := StateT σ HostM

/-- Work on a value that may fail. -/
abbrev Attempt (σ : Type) := ExceptT Error (Work σ)

/-- Reports an event. -/
def report (event : Event) : HostM Unit :=
  modify fun host => { host with events := host.events ++ [event] }

/-- Reports events in order. -/
def reportAll (events : List Event) : HostM Unit :=
  modify fun host => { host with events := host.events ++ events }

namespace Work

variable {σ τ α : Type}

/-- Work on a part of a value. -/
def focus (part : σ → τ) (replace : σ → τ → σ) (work : Work τ α) : Work σ α := do
  let (a, t) ← work.run (part (← get))
  modify fun s => replace s t
  pure a

end Work

namespace Attempt

variable {σ τ α : Type}

/-- An attempt on a part of a value. -/
def focus (part : σ → τ) (replace : σ → τ → σ) (attempt : Attempt τ α) : Attempt σ α :=
  ExceptT.mk (Work.focus part replace attempt.run)

/-- Passes a result on, or fails with its error. -/
def ofExcept (e : Except Error α) : Attempt σ α := ExceptT.mk (pure e)

/-- What the device answers, its refusal taken for an error. -/
def ofDevice (answer : HostM (Except DeviceError α)) : Attempt σ α :=
  ExceptT.mk do
    match ← answer with
    | .ok a => pure (.ok a)
    | .error e => pure (.error (.device e))

end Attempt

/-! ## The device -/

namespace Device

/-- Asks for something: the policy of the device decides first. -/
def ask (request : DeviceRequest) : HostM (Option DeviceError) := do
  let device := (← get).device
  modify fun host => { host with device := { host.device with requests := device.requests + 1 } }
  pure (device.policy device.requests request)

/-- Changes the device. -/
def change (f : Device → Device) : HostM Unit :=
  modify fun host => { host with device := f host.device }

/-- Takes the next handle. -/
def takeHandle : HostM Handle := do
  change fun d => { d with lastHandle := d.lastHandle + 1 }
  pure (← get).device.lastHandle

/-- What the compiler finds wrong with a source: rejected text in it, or no entry point. -/
def diagnose (device : Device) (source entry : String) : Option String :=
  match device.rejected with
  | some marker =>
    if Text.occursIn marker source then some s!"error X3000: syntax error near '{marker}'"
    else if Text.occursIn entry source then none
    else some s!"error X3501: '{entry}': entrypoint not found"
  | none =>
    if Text.occursIn entry source then none
    else some s!"error X3501: '{entry}': entrypoint not found"

/-- Compiles a source at an entry point. The bytecode is the text of the source. -/
def compile (source entry : String) (stage : Stage) : HostM (Except DeviceError Bytecode) := do
  match ← ask (.compile source entry stage) with
  | some e => pure (.error e)
  | none =>
    report (.deviceCompiles entry stage)
    match diagnose (← get).device source entry with
    | some diagnostic => pure (.error (.shaderCompilation diagnostic))
    | none =>
      change fun d => { d with compiled := d.compiled ++ [(entry, stage)] }
      pure (.ok ⟨stage, entry, Text.utf8 source⟩)

/-- Creates a pipeline. -/
def createPipeline (descriptor : PipelineDescriptor) : HostM (Except DeviceError Handle) := do
  match ← ask (.pipeline descriptor) with
  | some e => pure (.error e)
  | none =>
    report (.deviceCreatesPipeline descriptor.label)
    let handle ← takeHandle
    change fun d => { d with pipelines := d.pipelines ++ [(handle, descriptor)] }
    pure (.ok handle)

/-- Creates a buffer of zero bytes. -/
def createBuffer (descriptor : BufferDescriptor) : HostM (Except DeviceError Handle) := do
  match ← ask (.buffer descriptor) with
  | some e => pure (.error e)
  | none =>
    report (.deviceCreatesBuffer descriptor.label descriptor.size)
    let handle ← takeHandle
    change fun d => { d with buffers := d.buffers.insert handle (List.replicate descriptor.size 0) }
    pure (.ok handle)

/-- Writes into a buffer. What would stand behind its end is cut off. -/
def writeBuffer (buffer : Handle) (offset : Nat) (data : List UInt8) : HostM Unit := do
  match (← get).device.buffers.get? buffer with
  | none => report (.writeToUnknownBuffer buffer)
  | some contents =>
    change fun d => { d with
      buffers := d.buffers.insert buffer (Bytes.overwrite contents offset data)
      writes := d.writes ++ [⟨buffer, offset, data⟩] }

/-- Destroys a buffer. -/
def destroyBuffer (buffer : Handle) : HostM Unit :=
  change fun d => { d with buffers := d.buffers.erase buffer }

/-- Creates a texture. -/
def createTexture (descriptor : TextureDescriptor) : HostM (Except DeviceError Handle) := do
  match ← ask (.texture descriptor) with
  | some e => pure (.error e)
  | none =>
    report (.deviceCreatesTexture descriptor)
    let handle ← takeHandle
    change fun d => { d with textures := d.textures ++ [(handle, descriptor)] }
    pure (.ok handle)

end Device

/-! ## Commands -/

namespace Commands

/-- Binds a constant buffer to a root slot. -/
def bind (slot : UInt32) (address : Nat) : HostM Unit :=
  modify fun host =>
    { host with commands := { host.commands with bound := host.commands.bound ++ [(slot, address)] } }

/-- Records the upload of a texture. -/
def upload (texture : Handle) (data : List UInt8) (width height : UInt32) : HostM Unit :=
  modify fun host =>
    { host with commands :=
      { host.commands with uploads := host.commands.uploads ++ [⟨texture, data, width, height⟩] } }

end Commands

/-! ## Loading textures -/

namespace TextureData

/-- Creates a texture for data and uploads it. -/
def create (t : TextureData) : HostM (Except DeviceError Handle) := do
  match ← Device.createTexture t.descriptor with
  | .error e => pure (.error e)
  | .ok texture =>
    Commands.upload texture t.data t.width t.height
    pure (.ok texture)

/-- The data of an image file. -/
def ofFile (disk : Disk) (path : String) : Except DeviceError TextureData :=
  let name := (Path.fileName? path).getD "unknown"
  match Image.isReadableName path, disk.read path with
  | true, .ok bytes =>
    match Image.decode? bytes with
    | some image => .ok (ofImage image name)
    | none => .error (.textureLoad path .undecodable)
  | _, _ => .error (.textureLoad path .undecodable)

/-- The data in the wanted shape, unless the program breaks off. -/
def shaped (t : TextureData) : TextureDimension → Option (Except DeviceError TextureData)
  | .d2 => some (.ok t)
  | .cube => t.toCube

end TextureData

namespace Loader

/-- Makes a path missing, as far as the loader makes textures up. -/
def markMissing (path : String) : Loader → Loader
  | stub missing requests => stub (missing ++ [path]) requests
  | images root => images root

/-- The paths that a loader which makes textures up was asked for. -/
def requests : Loader → List String
  | stub _ requests => requests
  | images _ => []

/-- A made-up texture: one white texel for each layer. -/
def stubData (path : String) (dimension : TextureDimension) : TextureData :=
  ⟨1, 1, .rgba8Unorm, dimension, List.replicate (4 * dimension.layers) 255, path⟩

/-- Loads a texture file in the wanted shape. Where the program breaks off, this is reported, and
the run goes on as after a refusal. -/
def loadImage (root : Option String) (path : String) (dimension : TextureDimension) :
    HostM (Except DeviceError Handle) := do
  let resolved := match root with
    | some root => Path.join root path
    | none => path
  match TextureData.ofFile (← get).disk resolved with
  | .error e => pure (.error e)
  | .ok flat =>
    match flat.shaped dimension with
    | none =>
      report .productOverflows
      pure (.error flat.notStrip)
    | some (.error e) => pure (.error e)
    | some (.ok t) =>
      match ← t.create with
      | .error e => pure (.error e)
      | .ok texture =>
        report (.textureLoaded resolved t.width t.height t.dimension)
        pure (.ok texture)

/-- Makes a texture up, unless its path is missing. -/
def loadStub (missing requests : List String) (path : String) (dimension : TextureDimension) :
    HostM (Except DeviceError Handle) := do
  modify fun host => { host with loader := stub missing (requests ++ [path]) }
  if missing.any fun m => Path.canonical m == Path.canonical path then
    pure (.error (.textureLoad path .fileNotFound))
  else (stubData path dimension).create

/-- Loads the texture of a path. -/
def load (path : String) (dimension : TextureDimension) : HostM (Except DeviceError Handle) := do
  match (← get).loader with
  | stub missing requests => loadStub missing requests path dimension
  | images root => loadImage root path dimension

end Loader

end SurfaceShading
