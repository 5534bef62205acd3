/-
  The table of bindless textures. Each path has a slot for each shape in which it is used; the
  first two slots are kept for the default textures.
-/
import SurfaceShading.Host
import SurfaceShading.Texture.Slots

namespace SurfaceShading

/-- Frees an index, which is reported when the slots refuse it. Says whether it was freed. -/
def Slots.giveBack (index : Nat) : Work Slots Bool := do
  match (← get).free index with
  | .ok slots =>
    set slots
    pure true
  | .error .outOfRange =>
    report (.freeOutOfRange index)
    pure false
  | .error .notTaken =>
    report (.doubleFree index)
    pure false

/-- What a path is known by: paths with the same components are the same. The two shapes of a
texture are two entries. -/
structure TextureKey where
  path : String
  dimension : TextureDimension
  deriving Repr, DecidableEq

namespace TextureKey

/-- The key of a path in some shape. -/
def of (path : String) (dimension : TextureDimension) : TextureKey :=
  ⟨Path.canonical path, dimension⟩

/-- Keys in the order of their paths, flat textures before cubes. -/
def precedes (a b : TextureKey) : Bool :=
  a.path < b.path || (a.path == b.path && a.dimension == .d2 && b.dimension == .cube)

instance : LT TextureKey := ⟨fun a b => a.precedes b = true⟩

instance : DecidableLT TextureKey := fun a b => inferInstanceAs (Decidable (a.precedes b = true))

end TextureKey

/-- A slot with the texture in it. -/
structure TextureSlot where
  index : Nat
  texture : Handle
  deriving Repr, DecidableEq

/-- A slot kept for the default texture of a shape, and the texture once it has been made. -/
structure DefaultSlot where
  dimension : TextureDimension
  index : Nat
  texture : Option Handle
  deriving Repr, DecidableEq

/-- The view at an index of the descriptor heap. -/
structure TextureView where
  texture : Handle
  dimension : TextureDimension
  deriving Repr, DecidableEq

/-- The part of the descriptor heap that shaders see: the last view written at each index, and
the number of writes. -/
structure DescriptorHeap where
  views : OrderedMap Nat TextureView
  writes : Nat
  deriving Repr, DecidableEq

/-- The table of textures. -/
structure TextureTable where
  heap : DescriptorHeap
  slots : Slots
  entries : OrderedMap TextureKey TextureSlot
  defaults : List DefaultSlot
  deriving Repr, DecidableEq

namespace TextureTable

/-- The slot, counted from the base, of the default texture of a shape. -/
def defaultIndex : TextureDimension → Nat
  | .d2 => 0
  | .cube => 1

/-- Keeps a slot for the default texture of a shape, if one is free. -/
def reserve (table : TextureTable) (dimension : TextureDimension) : TextureTable :=
  match table.slots.allocate with
  | some (index, slots) =>
    { table with slots := slots, defaults := table.defaults ++ [⟨dimension, index, none⟩] }
  | none => table

/-- A table with its two default slots, as far as there is room. -/
def new (capacity base : Nat) : TextureTable :=
  let empty : TextureTable := ⟨⟨.empty, 0⟩, .new capacity base, .empty, []⟩
  (empty.reserve .d2).reserve .cube

/-- The shapes for which a table of a capacity has no default slot. -/
def missingDefaults (capacity : Nat) : List TextureDimension :=
  [TextureDimension.d2, .cube].drop capacity

/-- Makes a table, with a report for each missing default slot. -/
def create (capacity base : Nat) : HostM TextureTable := do
  reportAll ((missingDefaults capacity).map (.noDefaultSlot capacity ·))
  pure (.new capacity base)

/-- The number of entries, default slots apart. -/
def size (table : TextureTable) : Nat := table.entries.size

/-- Whether all default textures have been made. -/
def hasDefaults (table : TextureTable) : Bool :=
  !table.defaults.isEmpty && table.defaults.all fun d => d.texture.isSome

/-- Writes a view into the heap. -/
def writeView (table : TextureTable) (index : Nat) (texture : Handle)
    (dimension : TextureDimension) : TextureTable :=
  { table with heap :=
    ⟨table.heap.views.insert index ⟨texture, dimension⟩, table.heap.writes + 1⟩ }

/-- The slot of a path, counted from the base. -/
def indexOf? (table : TextureTable) (path : String) (dimension : TextureDimension) :
    Option Nat :=
  (table.entries.get? (.of path dimension)).bind fun slot => table.slots.relative? slot.index

/-- The texture of a path. -/
def texture? (table : TextureTable) (path : String) (dimension : TextureDimension) :
    Option Handle :=
  (table.entries.get? (.of path dimension)).map TextureSlot.texture

/-- Frees an index. -/
def free (index : Nat) : Work TextureTable Bool :=
  Work.focus slots (fun table slots => { table with slots := slots }) (Slots.giveBack index)

/-- Makes and uploads the white texture of a default slot, unless it is there. -/
def ensureDefault (i : Nat) (slot : DefaultSlot) : Attempt TextureTable Unit := do
  if slot.texture.isNone then
    let texture ← Attempt.ofDevice (TextureData.white slot.dimension).create
    modify fun table =>
      let written := table.writeView slot.index texture slot.dimension
      { written with defaults := written.defaults.set i { slot with texture := some texture } }

/-- Makes the default textures of slots, the first of which has an ordinal. -/
def ensureFrom (i : Nat) : List DefaultSlot → Attempt TextureTable Unit
  | [] => pure ()
  | slot :: rest => do
    ensureDefault i slot
    ensureFrom (i + 1) rest

/-- Makes the default textures that are not there yet. -/
def ensureDefaults : Attempt TextureTable Unit := do
  ensureFrom 0 (← get).defaults

/-- Loads the texture of a path into a slot taken for it. When the load fails, the slot is
given back. -/
def fill (index : Nat) (path : String) (dimension : TextureDimension) :
    Work TextureTable Nat := do
  match ← Loader.load path dimension with
  | .error e =>
    let _ ← free index
    report (.textureNotLoaded path e)
    pure (defaultIndex dimension)
  | .ok texture =>
    modify fun table =>
      let written := table.writeView index texture dimension
      { written with entries := written.entries.insert (.of path dimension) ⟨index, texture⟩ }
    let relative := (← get).slots.distance index
    report (.textureBound path dimension relative)
    pure relative

/-- The slot of a path, counted from the base. A path that has none is loaded, into a slot
taken before; without a free slot or a texture the default one is the answer. -/
def acquire (path : String) (dimension : TextureDimension) : Work TextureTable Nat := do
  let table ← get
  match table.indexOf? path dimension with
  | some index => pure index
  | none =>
    match table.slots.allocate with
    | none =>
      report (.tableFull table.slots.capacity path)
      pure (defaultIndex dimension)
    | some (index, slots) =>
      set { table with slots := slots }
      fill index path dimension

/-- Frees indices in order. -/
def freeAll : List Nat → Work TextureTable Unit
  | [] => pure ()
  | index :: rest => do
    let _ ← free index
    freeAll rest

/-- Removes the entries of a path and frees their slots. Says whether there were any. -/
def release (path : String) : Work TextureTable Bool := do
  let key := Path.canonical path
  let table ← get
  let freed := (table.entries.filter fun k _ => k.path == key).values.map TextureSlot.index
  set { table with entries := table.entries.filter fun k _ => k.path != key }
  freeAll freed
  pure !freed.isEmpty

/-- Removes all entries and default slots and frees their slots. -/
def clear : Work TextureTable Unit := do
  let table ← get
  set { table with entries := .empty, defaults := [] }
  freeAll (table.entries.values.map TextureSlot.index)
  freeAll (table.defaults.map DefaultSlot.index)

end TextureTable

end SurfaceShading
