/-
  The device of the host: what it has created, what it was asked for, and when it refuses.
-/
import SurfaceShading.Gpu.Descriptor
import SurfaceShading.Gpu.Error
import SurfaceShading.OrderedMap

namespace SurfaceShading

/-- What a device can be asked to create. -/
inductive DeviceRequest where
  | compile (source entry : String) (stage : Stage)
  | pipeline (descriptor : PipelineDescriptor)
  | buffer (descriptor : BufferDescriptor)
  | texture (descriptor : TextureDescriptor)
  deriving Repr, DecidableEq

/-- One write into a buffer. -/
structure BufferWrite where
  buffer : Handle
  offset : Nat
  data : List UInt8
  deriving Repr, DecidableEq

/-- A device without hardware. It keeps the contents of its buffers and a record of all that it
was asked for. Its policy says which requests it refuses: it sees how many requests came
before, so any pattern of refusals is a policy. -/
structure Device where
  lastHandle : Handle
  buffers : OrderedMap Handle (List UInt8)
  compiled : List (String × Stage)
  pipelines : List (Handle × PipelineDescriptor)
  textures : List (Handle × TextureDescriptor)
  writes : List BufferWrite
  rejected : Option String
  requests : Nat
  policy : Nat → DeviceRequest → Option DeviceError

namespace Device

/-- A policy that refuses nothing. -/
def acceptAll : Nat → DeviceRequest → Option DeviceError := fun _ _ => none

/-- A device that has been asked for nothing. -/
def new : Device := ⟨0, .empty, [], [], [], [], none, 0, acceptAll⟩

instance : Inhabited Device := ⟨new⟩

/-- The address of a buffer. -/
def address (buffer : Handle) : Nat := 0x100000000 + buffer * 0x10000

/-- Whether writing at an offset is out of bounds: nothing can be written behind the end. -/
def outOfBounds (device : Device) (buffer : Handle) (offset : Nat) : Bool :=
  match device.buffers.get? buffer with
  | some contents => contents.length < offset
  | none => false

end Device

end SurfaceShading
