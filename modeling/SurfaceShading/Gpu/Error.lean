/-
  What the host's device and the texture loader answer when they refuse.
-/

namespace SurfaceShading

/-- Why a texture could not be loaded. -/
inductive LoadFault where
  | fileNotFound
  | undecodable
  | notCubeStrip (width height : UInt32)
  | injected
  deriving Repr, DecidableEq

def LoadFault.message : LoadFault → String
  | fileNotFound => "file not found"
  | undecodable => "image cannot be decoded"
  | notCubeStrip width height =>
    s!"cube texture must be a vertical strip of six square faces, got {width}x{height}"
  | injected => "injected"

/-- Errors of the device and the loader. -/
inductive DeviceError where
  | shaderCompilation (text : String)
  | pipelineCreation (text : String)
  | bufferCreation (text : String)
  | textureCreation (text : String)
  | textureLoad (path : String) (fault : LoadFault)
  | unknownHandle (handle : Nat)
  | outOfMemory
  | deviceLost
  deriving Repr, DecidableEq

def DeviceError.message : DeviceError → String
  | shaderCompilation text => s!"Failed to compile shader: {text}"
  | pipelineCreation text => s!"Failed to create pipeline: {text}"
  | bufferCreation text => s!"Failed to create buffer: {text}"
  | textureCreation text => s!"Failed to create texture: {text}"
  | textureLoad path fault => s!"Failed to load texture {path}: {fault.message}"
  | unknownHandle handle => s!"Unknown resource handle: {handle}"
  | outOfMemory => "Out of memory"
  | deviceLost => "Device lost"

end SurfaceShading
