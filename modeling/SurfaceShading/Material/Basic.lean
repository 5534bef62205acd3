/-
  Materials. A material sets values and texture paths for the parameters of a shader; its
  constant buffer is packed from them. Setting only marks a material as changed, and what the
  device sees changes with the next update.
-/
import SurfaceShading.Material.File
import SurfaceShading.Shader.Object
import SurfaceShading.Texture.Table

namespace SurfaceShading

/-- A material of a shader. A texture parameter with a path has an index once the path is
resolved to a slot. `staging` is the constant buffer as it was last packed. -/
structure Material where
  name : String
  object : ShaderId
  shader : Shader
  values : OrderedMap String Value
  texturePaths : OrderedMap String String
  textureIndices : OrderedMap String Nat
  staging : List UInt8
  buffer : Option Handle
  dirty : Bool
  pending : Bool
  deriving Repr, DecidableEq

namespace Material

/-- A material that sets nothing. -/
def new (name : String) (object : ShaderId) (shader : Shader) : Material :=
  ⟨name, object, shader, .empty, .empty, .empty, List.replicate shader.bufferSize 0, none, true,
    false⟩

/-- The address of the constant buffer; zero while there is none. -/
def address (m : Material) : Nat :=
  match m.buffer with
  | some buffer => Device.address buffer
  | none => 0

/-- The parameter of a name, or the error of a name without one. -/
def requireParameter (m : Material) (name : String) : Except Error Parameter :=
  match m.shader.parameter? name with
  | some parameter => .ok parameter
  | none => .error (.unknownParameter m.shader.name name)

/-- Sets a value of the declared type. -/
def setValue (m : Material) (name : String) (value : Value) : Except Error Material := do
  let parameter ← m.requireParameter name
  if parameter.type ≠ .value value.type then
    .error (.typeMismatch name parameter.type (.value value.type))
  else if !value.isFinite then .error (.notFinite name value)
  else .ok { m with values := m.values.insert name value, dirty := true }

/-- Sets the path of a texture parameter, which has no slot until it is resolved. -/
def setTexturePath (m : Material) (name path : String) : Except Error Material := do
  let parameter ← m.requireParameter name
  if parameter.isTexture then
    .ok { m with
      texturePaths := m.texturePaths.insert name path
      textureIndices := m.textureIndices.erase name
      pending := true
      dirty := true }
  else .error (.typeMismatch name parameter.type (.texture .d2))

/-- The value in force: the one that was set, else the default. -/
def value? (m : Material) (name : String) : Option Value :=
  (m.values.get? name).or ((m.shader.parameter? name).bind Parameter.default?)

/-- The slot of a texture parameter; while it has none, that of the default texture. -/
def textureIndex (m : Material) (name : String) : Nat :=
  match m.textureIndices.get? name with
  | some index => index
  | none =>
    match (m.shader.parameter? name).bind fun p => p.type.dimension? with
    | some dimension => TextureTable.defaultIndex dimension
    | none => TextureTable.defaultIndex .d2

/-! ## The constant buffer -/

/-- The bytes of a parameter: its value in force or its slot. -/
def parameterBytes (m : Material) (p : Parameter) : List UInt8 :=
  match p.content with
  | .value default => ((m.values.get? p.name).getD default).bytes
  | .texture _ _ => Bytes.ofWord (UInt32.ofNat (m.textureIndex p.name))

/-- The constant buffer: the bytes of each parameter at its offset, zero elsewhere. -/
def packed (m : Material) : List UInt8 :=
  m.shader.layout.parameters.foldl
    (fun buffer p => Bytes.overwrite buffer p.offset.toNat (m.parameterBytes p))
    (List.replicate m.shader.bufferSize 0)

/-- Packs the constant buffer. -/
def pack (m : Material) : Material := { m with staging := m.packed }

/-- Makes the constant buffer, unless it is there or has no bytes. -/
def createBuffer : Attempt Material Unit := do
  let m ← get
  if m.buffer.isNone && m.shader.bufferSize != 0 then
    let buffer ← Attempt.ofDevice
      (Device.createBuffer (.constants (m.name ++ "_constants") m.shader.bufferSize))
    set { m with buffer := some buffer }

/-- Packs and writes the constant buffer, after which the device sees the material as it is. -/
def update : Attempt Material Unit := do
  createBuffer
  modify pack
  let m ← get
  match m.buffer with
  | some buffer => Device.writeBuffer buffer 0 m.staging
  | none => pure ()
  set { m with dirty := false }

/-- Binds the constant buffer to a root slot, updating a changed material first. -/
def bind (slot : UInt32) : Attempt Material Unit := do
  let m ← get
  if m.dirty || m.buffer.isNone then update
  let m ← get
  if m.buffer.isSome then Commands.bind slot m.address

/-- Destroys the constant buffer, if there is one. -/
def release : Work Material Unit := do
  let m ← get
  match m.buffer with
  | some buffer =>
    Device.destroyBuffer buffer
    set { m with buffer := none, dirty := true }
  | none => pure ()

/-! ## Textures -/

/-- The texture parameters with a path and no slot, each with its path and shape. -/
def unresolved (m : Material) : List (String × String × TextureDimension) :=
  m.texturePaths.entries.filterMap fun (name, path) =>
    if m.textureIndices.contains name then none
    else
      ((m.shader.parameter? name).bind fun p => p.type.dimension?).map fun dimension =>
        (name, path, dimension)

/-- Resolves texture parameters in order. -/
def resolve : List (String × String × TextureDimension) → Work (Material × TextureTable) Unit
  | [] => pure ()
  | (name, path, dimension) :: rest => do
    let index ← Work.focus Prod.snd (fun s table => (s.1, table))
      (TextureTable.acquire path dimension)
    modify fun (m, table) =>
      ({ m with textureIndices := m.textureIndices.insert name index }, table)
    resolve rest

/-- Resolves all texture parameters and updates the material. -/
def loadTextures : Attempt (Material × TextureTable) Unit := do
  let (m, _) ← get
  resolve m.unresolved
  modify fun (m, table) => ({ m with pending := false }, table)
  Attempt.focus Prod.fst (fun s m => (m, s.2)) update

/-! ## Files -/

/-- Makes a change, unless it is refused, which is reported. -/
def tryChange (change : Material → Except Error Material) : Work Material Unit := do
  let m ← get
  match change m with
  | .ok changed => set changed
  | .error e => report (.entryRejected m.name e)

/-- Sets the values and texture paths of a file, in the order of their names. -/
def applyFile (file : MaterialFile) : Work Material Unit := do
  file.parameters.entries.forM fun (name, value) => tryChange fun m => m.setValue name value
  file.textures.entries.forM fun (name, path) => tryChange fun m => m.setTexturePath name path

/-- The file of a material: what it sets. -/
def toFile (m : Material) : MaterialFile := ⟨m.name, m.shader.name, m.values, m.texturePaths⟩

/-- Saves the file of a material. -/
def save (m : Material) (path : String) : HostM (Except Error Unit) := do
  let (disk, result) := m.toFile.save (← get).disk path
  modify fun host => { host with disk := disk }
  match result with
  | .ok () =>
    report (.materialSaved m.name path)
    pure (.ok ())
  | .error e => pure (.error e)

end Material

end SurfaceShading
