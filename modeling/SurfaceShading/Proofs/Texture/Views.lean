/-
  What the slots of a table show. A table that is equipped has its default slots, and nothing but
  white textures in them (`TextureTable.Equipped`); all that is done to a table but clearing it
  keeps it so. Acquiring a path only adds to the entries of a table (`TextureTable.Grows`), so an
  index that was found stays that of its path, and shows a texture of its shape.
-/
import SurfaceShading.Proofs.Texture.Integrity

namespace SurfaceShading

namespace TextureTable

variable {table table' : TextureTable} {h h' : Host} {capacity base : Nat}
  {kept : List (TextureDimension × Nat)} {path : String} {dimension : TextureDimension}
  {index : Nat}

/-! ## Indices of paths -/

/-- A path has an entry, at an index. -/
def Found (table : TextureTable) (path : String) (dimension : TextureDimension) (index : Nat) :
    Prop :=
  ∃ entry, table.entries.get? (.of path dimension) = some entry ∧
    entry.index = table.slots.base + index

/-- Entries are added to a table, and none is changed. -/
structure Grows (table table' : TextureTable) : Prop where
  start : table'.slots.base = table.slots.base
  defaults : table'.defaults = table.defaults
  entries : ∀ {key entry}, table.entries.get? key = some entry →
    table'.entries.get? key = some entry

theorem Grows.refl (table : TextureTable) : Grows table table := ⟨rfl, rfl, id⟩

theorem Grows.trans {table'' : TextureTable} (first : Grows table table')
    (second : Grows table' table'') : Grows table table'' :=
  ⟨second.start.trans first.start, second.defaults.trans first.defaults,
    second.entries ∘ first.entries⟩

theorem Found.grows (found : table.Found path dimension index) (grows : Grows table table') :
    table'.Found path dimension index := by
  obtain ⟨entry, is, place⟩ := found
  exact ⟨entry, grows.entries is, by rw [place, grows.start]⟩

/-- Acquiring a path adds the entry of the path, if any. -/
theorem Acquired.grows (acquired : Acquired path dimension table h index table' h') :
    Grows table table' := by
  cases acquired with
  | known _ _ _ => exact .refl table
  | full _ _ => exact .refl table
  | failed _ _ _ => exact ⟨rfl, rfl, id⟩
  | loaded absent _ _ =>
    refine ⟨rfl, rfl, fun {key entry} is => ?_⟩
    have other : key ≠ .of path dimension := fun same => by
      rw [same, absent] at is
      cases is
    exact (OrderedMap.get?_insert_of_ne _ other _).trans is

/-- The answer is the index of the path, or that of the default slot. -/
theorem Acquired.answers (acquired : Acquired path dimension table h index table' h') :
    table'.Found path dimension index ∨ index = defaultIndex dimension := by
  cases acquired with
  | known there place _ => exact .inl ⟨_, there, place⟩
  | full _ _ => exact .inr rfl
  | failed _ _ _ => exact .inr rfl
  | loaded _ _ _ => exact .inl ⟨_, OrderedMap.get?_insert_self _ _ _, rfl⟩

/-! ## Tables with default slots -/

/-- The default slots of a new table, as far as there are slots. -/
def reserved (capacity base : Nat) : List (TextureDimension × Nat) :=
  ([TextureDimension.d2, .cube].take capacity).map fun dimension =>
    (dimension, base + defaultIndex dimension)

/-- A sound table of some slots, with some default slots whose textures are white. -/
structure Equipped (table : TextureTable) (capacity base : Nat)
    (kept : List (TextureDimension × Nat)) (h : Host) : Prop where
  sound : table.Sound
  size : table.slots.capacity = capacity
  start : table.slots.base = base
  defaults : table.defaults.map (fun d => (d.dimension, d.index)) = kept
  white : table.White h

/-- The default textures of a new table are still to be made. -/
theorem white_new (capacity base : Nat) (h : Host) : (new capacity base).White h := by
  have reserve {table : TextureTable} (white : table.White h) (dimension : TextureDimension) :
      (table.reserve dimension).White h := by
    unfold TextureTable.reserve
    split
    · intro d mem texture is
      rcases List.mem_append.1 mem with old | new
      · exact white d old texture is
      · rw [List.mem_singleton.1 new] at is
        cases is
    · exact white
  have empty : (vacant capacity base).White h := fun _ mem => absurd mem List.not_mem_nil
  exact reserve (reserve empty .d2) .cube

theorem equipped_new (room : base + capacity ≤ indexSpace) (h : Host) :
    (new capacity base).Equipped capacity base (reserved capacity base) h where
  sound := sound_new room
  size := (reserves_new room).size
  start := (reserves_new room).start
  defaults := (reserves_new room).defaults
  white := white_new capacity base h

namespace Equipped

/-- What keeps the slots, and the default textures white, leaves a table equipped. -/
theorem onward (equipped : table.Equipped capacity base kept h) (keeps : KeepsSlots table table')
    (sound : table'.Sound) (white : table'.White h') :
    table'.Equipped capacity base kept h' where
  sound := sound
  size := keeps.size.trans equipped.size
  start := keeps.start.trans equipped.start
  defaults := keeps.defaults.trans equipped.defaults
  white := white

theorem reserves (equipped : table.Equipped capacity base (reserved capacity base) h) :
    table.Reserves capacity base := ⟨equipped.size, equipped.start, equipped.defaults⟩

theorem keeps (equipped : table.Equipped capacity base kept h) (keeps : h.KeepsTextures h') :
    table.Equipped capacity base kept h' :=
  { equipped with white := fun d mem texture is => (equipped.white d mem texture is).keeps keeps }

theorem stocked (equipped : table.Equipped capacity base kept h)
    (stocked : Stocked table h table' h') : table'.Equipped capacity base kept h' :=
  equipped.onward stocked.keepsSlots stocked.sound (stocked.white equipped.white)

theorem acquired (equipped : table.Equipped capacity base kept h)
    (acquired : Acquired path dimension table h index table' h') (builds : h.Builds h') :
    table'.Equipped capacity base kept h' := by
  refine equipped.onward acquired.keepsSlots (acquired.sound equipped.sound) ?_
  unfold White
  rw [acquired.grows.defaults]
  exact (equipped.keeps builds.keepsTextures).white

theorem released (equipped : table.Equipped capacity base kept h)
    (released : Released path table table') : table'.Equipped capacity base kept h := by
  refine equipped.onward released.keepsSlots released.sound ?_
  unfold White
  rw [released.defaults]
  exact equipped.white

end Equipped

/-! ## What an index shows -/

/-- At an index of the table there is a view of a texture in some shape. -/
structure Shows (table : TextureTable) (index : Nat) (texture : Handle)
    (dimension : TextureDimension) : Prop where
  inside : index < table.slots.capacity
  view : table.heap.views.get? (table.slots.base + index) = some ⟨texture, dimension⟩

/-- The index of a path shows the texture of its entry. -/
theorem Found.shows (found : table.Found path dimension index) (sound : table.Sound) :
    ∃ texture, table.Shows index texture dimension := by
  obtain ⟨entry, is, place⟩ := found
  obtain ⟨slot, place', lt, _⟩ := sound.indexOf? is
  obtain rfl : index = slot := Nat.add_left_cancel (place.symm.trans place')
  exact ⟨entry.texture, lt, place ▸ sound.views (OrderedMap.mem_of_get? is)⟩

theorem defaultIndex_lt_two (dimension : TextureDimension) : defaultIndex dimension < 2 := by
  cases dimension <;> decide

/-- The default slots show white textures, once these are made. -/
theorem Equipped.default_shows
    (equipped : table.Equipped capacity base (reserved capacity base) h) (room : 2 ≤ capacity)
    (made : ∀ d ∈ table.defaults, d.texture.isSome = true) (dimension : TextureDimension) :
    ∃ texture, table.Shows (defaultIndex dimension) texture dimension ∧
      h.HasTexture texture (.white dimension) := by
  have lt : defaultIndex dimension < capacity :=
    Nat.lt_of_lt_of_le (defaultIndex_lt_two dimension) room
  obtain ⟨d, mem, rfl, place⟩ := equipped.reserves.exists_default lt
  obtain ⟨texture, has⟩ := Option.isSome_iff_exists.1 (made d mem)
  refine ⟨texture, ⟨equipped.size.symm ▸ lt, ?_⟩, equipped.white d mem texture has⟩
  rw [equipped.start, ← place]
  exact equipped.sound.made mem has

end TextureTable

end SurfaceShading
