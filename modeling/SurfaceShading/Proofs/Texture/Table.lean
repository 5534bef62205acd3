/-
  A sound table of textures. The entries and the default slots hold distinct indices, just those
  that are allocated, and the heap has the view of every texture in its slot
  (`TextureTable.Sound`). Making default textures, acquiring, releasing and clearing keep this,
  and for each there is one lemma that says all it does.
-/
import SurfaceShading.Proofs.OrderedMap
import SurfaceShading.Proofs.Texture.Allocation
import SurfaceShading.Proofs.World.Textures

namespace SurfaceShading

/-! ## Keys -/

namespace TextureKey

theorem lt_iff {a b : TextureKey} :
    a < b ↔ a.path < b.path ∨ a.path = b.path ∧ a.dimension = .d2 ∧ b.dimension = .cube := by
  show a.precedes b = true ↔ _
  simp [precedes, and_assoc]

instance : Std.Irrefl (α := TextureKey) (· < ·) where
  irrefl a less := by
    rcases lt_iff.1 less with less | ⟨_, flat, cube⟩
    · exact Std.lt_irrefl less
    · rw [flat] at cube
      cases cube

instance : Trans (α := TextureKey) (· < ·) (· < ·) (· < ·) where
  trans {a b c} first second := by
    rw [lt_iff] at *
    rcases first with less | ⟨same, flat, cube⟩
    · rcases second with more | ⟨same, _⟩
      · exact .inl (Std.lt_trans less more)
      · exact .inl (same ▸ less)
    · rcases second with more | ⟨_, flat', _⟩
      · exact .inl (same ▸ more)
      · rw [cube] at flat'
        cases flat'

instance : Std.Trichotomous (α := TextureKey) (· < ·) where
  trichotomous a b notLess notMore := by
    rw [lt_iff, not_or] at notLess notMore
    have path : a.path = b.path := Std.Trichotomous.trichotomous _ _ notLess.1 notMore.1
    obtain ⟨_, d⟩ := a
    obtain ⟨_, d'⟩ := b
    cases path
    cases d <;> cases d' <;> simp_all

end TextureKey

/-! ## Insertion -/

namespace OrderedMap

variable {κ α : Type} [DecidableEq κ] [LT κ] [DecidableLT κ]

theorem perm_place {k : κ} {l : List (κ × α)} (new : find k l = none) (x : α) :
    (place k x l).Perm ((k, x) :: l) := by
  induction l with
  | nil => exact .refl _
  | cons e rest ih =>
    obtain ⟨k', y⟩ := e
    rw [find] at new
    split at new
    · cases new
    · next other =>
      rw [place, if_neg other]
      split
      · exact .refl _
      · exact ((ih new).cons _).trans (.swap ..)

/-- A new key adds its entry. -/
theorem perm_insert {m : OrderedMap κ α} {k : κ} (new : m.get? k = none) (x : α) :
    (m.insert k x).entries.Perm ((k, x) :: m.entries) := perm_place new x

end OrderedMap

namespace Slots

variable {s : Slots} {slot index : Nat}

/-! ## Slots taken and given back -/

/-- A free slot that is taken and given back leaves the cursor moved on. -/
theorem freeing_taking (lt : slot < s.capacity) (free : s.isUsed slot = false) :
    (s.taking slot).freeing slot = { s with cursor := (slot + 1) % s.capacity } := by
  have used : (s.used.setIfInBounds slot true).setIfInBounds slot false = s.used := by
    refine Array.ext_getElem? fun i => ?_
    simp only [Array.getElem?_setIfInBounds, Array.size_setIfInBounds]
    by_cases same : slot = i
    · subst same
      have was : s.used[slot]? = some s.used[slot] := Array.getElem?_eq_getElem lt
      rw [isUsed, Array.getD_eq_getD_getElem?, was, Option.getD_some] at free
      rw [if_pos rfl, was, free]
      exact if_pos lt
    · rw [if_neg same, if_neg same]
  rw [freeing, taking]
  simp [used]

/-! ## Indices in use -/

/-- The slots are those of a list of indices, each listed once, and their indices are words. -/
structure Holds (s : Slots) (indices : List Nat) : Prop where
  sound : s.Sound
  room : s.base + s.capacity ≤ indexSpace
  distinct : indices.Nodup
  allocated : ∀ index, s.isAllocated index = true ↔ index ∈ indices

namespace Holds

variable {indices indices' : List Nat}

theorem perm (holds : s.Holds indices) (perm : indices'.Perm indices) : s.Holds indices' where
  sound := holds.sound
  room := holds.room
  distinct := perm.nodup_iff.2 holds.distinct
  allocated index := by rw [holds.allocated, perm.mem_iff]

/-- The cursor does not matter, as long as it is at a slot. -/
theorem move (holds : s.Holds indices) {cursor : Nat}
    (lt : 0 < s.capacity → cursor < s.capacity) :
    ({ s with cursor := cursor } : Slots).Holds indices where
  sound := ⟨lt, holds.sound.taken⟩
  room := holds.room
  distinct := holds.distinct
  allocated := holds.allocated

theorem exists_slot (holds : s.Holds indices) (mem : index ∈ indices) :
    ∃ slot, index = s.base + slot ∧ s.isUsed slot = true :=
  isAllocated_iff.1 ((holds.allocated index).2 mem)

theorem fresh (holds : s.Holds indices) (free : s.isUsed slot = false) :
    s.base + slot ∉ indices := fun mem => by
  obtain ⟨other, is, used⟩ := holds.exists_slot mem
  rw [← Nat.add_left_cancel is, free] at used
  cases used

theorem taking (holds : s.Holds indices) (lt : slot < s.capacity) (free : s.isUsed slot = false) :
    (s.taking slot).Holds ((s.base + slot) :: indices) where
  sound := holds.sound.taking lt free
  room := by rw [capacity_taking]; exact holds.room
  distinct := List.nodup_cons.2 ⟨holds.fresh free, holds.distinct⟩
  allocated index := by
    rw [isAllocated_taking lt, holds.allocated, List.mem_cons, or_comm]

theorem freeing (holds : s.Holds ((s.base + slot) :: indices)) :
    (s.freeing slot).Holds indices := by
  obtain ⟨notMem, distinct⟩ := List.nodup_cons.1 holds.distinct
  obtain ⟨other, is, used⟩ := holds.exists_slot List.mem_cons_self
  obtain rfl : slot = other := Nat.add_left_cancel is
  have lt := lt_of_isUsed used
  refine ⟨holds.sound.freeing used, ?_, distinct, fun index => ?_⟩
  · rw [capacity_freeing]
    exact holds.room
  · rw [isAllocated_freeing lt, holds.allocated, List.mem_cons]
    constructor
    · rintro ⟨same | mem, different⟩
      · exact absurd same different
      · exact mem
    · exact fun mem => ⟨.inr mem, fun same => notMem (same ▸ mem)⟩

/-- The count is that of the indices. -/
theorem taken (holds : s.Holds indices) : s.taken = indices.length := by
  have image : s.usedSlots.image (s.base + ·) = indices.toFinset := by
    ext index
    rw [List.mem_toFinset, ← holds.allocated, isAllocated_iff, Finset.mem_image]
    simp only [mem_usedSlots, eq_comm, and_comm]
  rw [holds.sound.taken, ← List.toFinset_card_of_nodup holds.distinct, ← image]
  exact (Finset.card_image_of_injective _ fun _ _ => Nat.add_left_cancel).symm

end Holds

theorem holds_new {capacity base : Nat} (room : base + capacity ≤ indexSpace) :
    (new capacity base).Holds [] where
  sound := sound_new capacity base
  room := by rwa [capacity_new]
  distinct := .nil
  allocated index := by
    refine ⟨fun allocated => ?_, fun mem => absurd mem List.not_mem_nil⟩
    obtain ⟨slot, _, used⟩ := isAllocated_iff.1 allocated
    rw [isUsed_new] at used
    cases used

end Slots

/-- A default slot as it was, but for a texture that it may have got. -/
structure DefaultSlot.Kept (d d' : DefaultSlot) : Prop where
  dimension : d'.dimension = d.dimension
  index : d'.index = d.index
  same : d.texture.isSome = true → d' = d

namespace TextureTable

variable {table table' : TextureTable} {h h' : Host}

/-! ## Sound tables -/

/-- The indices of the entries and of the default slots. -/
def held (table : TextureTable) : List Nat :=
  table.entries.values.map TextureSlot.index ++ table.defaults.map DefaultSlot.index

/-- Entries and default slots hold the allocated indices, each one another, and the views of
their textures are in the heap. -/
structure Sound (table : TextureTable) : Prop where
  holds : table.slots.Holds table.held
  sorted : table.entries.Sorted
  views : ∀ {key slot}, (key, slot) ∈ table.entries.entries →
    table.heap.views.get? slot.index = some ⟨slot.texture, key.dimension⟩
  made : ∀ {d}, d ∈ table.defaults → ∀ {texture}, d.texture = some texture →
    table.heap.views.get? d.index = some ⟨texture, d.dimension⟩

theorem mem_held_of_entry {key : TextureKey} {slot : TextureSlot}
    (mem : (key, slot) ∈ table.entries.entries) : slot.index ∈ table.held := by
  refine List.mem_append_left _ (List.mem_map.2 ⟨slot, ?_, rfl⟩)
  exact List.mem_map.2 ⟨(key, slot), mem, rfl⟩

theorem mem_held_of_default {d : DefaultSlot} (mem : d ∈ table.defaults) :
    d.index ∈ table.held := List.mem_append_right _ (List.mem_map.2 ⟨d, mem, rfl⟩)

theorem Sound.taken (sound : table.Sound) :
    table.slots.taken = table.size + table.defaults.length := by
  rw [sound.holds.taken, held, List.length_append, List.length_map, List.length_map,
    OrderedMap.values, List.length_map]
  rfl

/-- An entry is found where its slot is. -/
theorem Sound.indexOf? (sound : table.Sound) {path : String} {dimension : TextureDimension}
    {slot : TextureSlot} (is : table.entries.get? (.of path dimension) = some slot) :
    ∃ i, slot.index = table.slots.base + i ∧ i < table.slots.capacity ∧
      table.indexOf? path dimension = some i := by
  obtain ⟨i, index, used⟩ := sound.holds.exists_slot (mem_held_of_entry (OrderedMap.mem_of_get? is))
  have lt := Slots.lt_of_isUsed used
  refine ⟨i, index, lt, ?_⟩
  rw [TextureTable.indexOf?, is, Option.bind_some]
  exact Slots.relative?_eq_some.2 ⟨index, lt⟩

/-- A table without any slot in use. -/
def vacant (capacity base : Nat) : TextureTable :=
  ⟨⟨.empty, 0⟩, .new capacity base, .empty, []⟩

theorem sound_vacant {capacity base : Nat} (room : base + capacity ≤ indexSpace) :
    (vacant capacity base).Sound where
  holds := Slots.holds_new room
  sorted := OrderedMap.sorted_empty
  views mem := absurd mem List.not_mem_nil
  made mem := absurd mem List.not_mem_nil

theorem Sound.reserve (sound : table.Sound) (dimension : TextureDimension) :
    (table.reserve dimension).Sound := by
  unfold TextureTable.reserve
  split
  · next index slots took =>
    obtain ⟨slot, first, rfl, rfl⟩ := Slots.allocate_eq_some sound.holds.sound took
    rw [Slots.indexOf_eq sound.holds.room first.lt]
    refine ⟨(sound.holds.taking first.lt first.free).perm ?_, sound.sorted, sound.views, ?_⟩
    · simp only [held, List.map_append, List.map_cons, List.map_nil, ← List.append_assoc]
      exact List.perm_append_singleton _ _
    · intro d mem texture is
      rcases List.mem_append.1 mem with old | new
      · exact sound.made old is
      · rw [List.mem_singleton.1 new] at is
        cases is
  · exact sound

theorem sound_new {capacity base : Nat} (room : base + capacity ≤ indexSpace) :
    (new capacity base).Sound := ((sound_vacant room).reserve .d2).reserve .cube

/-! ## Default textures -/

theorem Sound.default_eq (sound : table.Sound) {d d' : DefaultSlot} (mem : d ∈ table.defaults)
    (mem' : d' ∈ table.defaults) (same : d.index = d'.index) : d = d' :=
  List.inj_on_of_nodup_map (List.nodup_append.1 sound.holds.distinct).2.1 mem mem' same

theorem Sound.entry_ne_default (sound : table.Sound) {key : TextureKey} {slot : TextureSlot}
    (mem : (key, slot) ∈ table.entries.entries) {d : DefaultSlot} (mem' : d ∈ table.defaults) :
    slot.index ≠ d.index := by
  refine (List.nodup_append.1 sound.holds.distinct).2.2 _ (List.mem_map.2 ⟨slot, ?_, rfl⟩) _
    (List.mem_map.2 ⟨d, mem', rfl⟩)
  exact List.mem_map.2 ⟨(key, slot), mem, rfl⟩

/-- The textures of the default slots are white. -/
def White (table : TextureTable) (h : Host) : Prop :=
  ∀ d ∈ table.defaults, ∀ texture, d.texture = some texture →
    h.HasTexture texture (.white d.dimension)

/-- A table as it was, but for default textures that were made. -/
structure Stocked (table : TextureTable) (h : Host) (table' : TextureTable) (h' : Host) : Prop where
  sound : table'.Sound
  slots : table'.slots = table.slots
  entries : table'.entries = table.entries
  length : table'.defaults.length = table.defaults.length
  kept : ∀ {i : Nat} {d : DefaultSlot}, table.defaults[i]? = some d →
    ∃ d', table'.defaults[i]? = some d' ∧ d.Kept d'
  white : table.White h → table'.White h'

theorem Stocked.refl (sound : table.Sound) (builds : h.Builds h') :
    Stocked table h table h' where
  sound := sound
  slots := rfl
  entries := rfl
  length := rfl
  kept is := ⟨_, is, rfl, rfl, fun _ => rfl⟩
  white white d mem texture is := (white d mem texture is).keeps builds.keepsTextures

theorem Stocked.trans {table'' : TextureTable} {h'' : Host} (first : Stocked table h table' h')
    (second : Stocked table' h' table'' h'') : Stocked table h table'' h'' where
  sound := second.sound
  slots := second.slots.trans first.slots
  entries := second.entries.trans first.entries
  length := second.length.trans first.length
  kept is := by
    obtain ⟨d', is', kept⟩ := first.kept is
    obtain ⟨d'', is'', kept'⟩ := second.kept is'
    refine ⟨d'', is'', kept'.dimension.trans kept.dimension, kept'.index.trans kept.index, ?_⟩
    intro has
    have same : d' = _ := kept.same has
    exact (kept'.same (same ▸ has)).trans same
  white white := second.white (first.white white)

theorem held_stocking {i : Nat} {slot : DefaultSlot} (is : table.defaults[i]? = some slot)
    (texture : Handle) : (table.stocking i slot texture).held = table.held := by
  have indices : (table.defaults.set i { slot with texture := some texture }).map
      DefaultSlot.index = table.defaults.map DefaultSlot.index := by
    refine List.ext_getElem? fun j => ?_
    rw [List.getElem?_map, List.getElem?_map, List.getElem?_set]
    by_cases same : i = j
    · obtain ⟨lt, _⟩ := List.getElem?_eq_some_iff.1 is
      rw [if_pos same, if_pos lt, ← same, is]
      rfl
    · rw [if_neg same]
  exact congrArg (table.entries.values.map TextureSlot.index ++ ·) indices

theorem Sound.stocking (sound : table.Sound) {i : Nat} {slot : DefaultSlot}
    (is : table.defaults[i]? = some slot) (none : slot.texture = none) (texture : Handle) :
    (table.stocking i slot texture).Sound := by
  have here : slot ∈ table.defaults := List.mem_of_getElem? is
  refine ⟨(held_stocking is texture).symm ▸ sound.holds, sound.sorted, ?_, ?_⟩
  · intro key entry mem
    refine (OrderedMap.get?_insert_of_ne _ ?_ _).trans (sound.views mem)
    exact sound.entry_ne_default mem here
  · intro d mem texture' made
    rcases List.mem_or_eq_of_mem_set mem with old | rfl
    · refine (OrderedMap.get?_insert_of_ne _ (fun same => ?_) _).trans (sound.made old made)
      rw [sound.default_eq old here same, none] at made
      cases made
    · cases made
      exact OrderedMap.get?_insert_self _ _ _

theorem stocked_stocking (sound : table.Sound) {i : Nat} {slot : DefaultSlot}
    (is : table.defaults[i]? = some slot) (none : slot.texture = none) {texture : Handle}
    (builds : h.Builds h') (has : h'.HasTexture texture (.white slot.dimension)) :
    Stocked table h (table.stocking i slot texture) h' where
  sound := sound.stocking is none texture
  slots := rfl
  entries := rfl
  length := List.length_set
  kept {j d} is' := by
    obtain ⟨lt, _⟩ := List.getElem?_eq_some_iff.1 is
    show ∃ d', (table.defaults.set i _)[j]? = some d' ∧ _
    rw [List.getElem?_set]
    by_cases same : i = j
    · subst same
      cases is.symm.trans is'
      rw [if_pos rfl, if_pos lt]
      refine ⟨_, rfl, rfl, rfl, fun some => ?_⟩
      rw [none] at some
      cases some
    · rw [if_neg same]
      exact ⟨d, is', rfl, rfl, fun _ => rfl⟩
  white white d mem texture' is := by
    rcases List.mem_or_eq_of_mem_set mem with old | rfl
    · exact (white d old texture' is).keeps builds.keepsTextures
    · cases is
      exact has

/-- **Making the default textures.** If nothing is refused every default slot has its texture
afterwards; no entry and no slot changes either way. -/
theorem ensureDefaults_ends (sound : table.Sound) (h : Host) :
    Attempt.Ends ensureDefaults table h fun r table' h' => Stocked table h table' h' ∧
      (r = .ok () → ∀ d ∈ table'.defaults, d.texture.isSome = true) := by
  have stocked : Attempt.Ends ensureDefaults table h fun _ table' h' =>
      Stocked table h table' h' := by
    refine ensureDefaults_rule (P := fun _ => Stocked table h) (.refl sound (Std.Refl.refl h))
      (fun _ _ _ _ _ _ held => held) ?_ fun _ _ held => held
    intro i slot t h₁ is none held
    have keeps := TextureData.create_keeps (.white slot.dimension) h₁
    refine (keeps.and (TextureData.create_ends _ h₁)).mono fun r h₂ ⟨keeps, has⟩ => ?_
    cases r with
    | error e => exact held.trans (.refl held.sound keeps.toBuilds)
    | ok texture =>
      exact held.trans (stocked_stocking held.sound is none keeps.toBuilds (has texture rfl))
  exact stocked.and (ensureDefaults_makes table h)

/-- A device that makes no texture refuses the first that is missing. -/
theorem ensureDefaults_refused {slot : DefaultSlot} {rest : List DefaultSlot}
    (are : table.defaults = slot :: rest) (missing : slot.texture = none)
    (refuses : ∀ n descriptor, ∃ e, h.device.policy n (.texture descriptor) = some e) :
    Attempt.Ends ensureDefaults table h fun r _ _ => ∃ e, r = .error e := by
  refine ensureDefaults_rule (P := fun i t h' => i = 0 ∧ t = table ∧ h' = h) ⟨rfl, rfl, rfl⟩
    ?_ ?_ ?_
  · rintro _ first _ _ is some ⟨rfl, rfl, rfl⟩
    rw [are] at is
    cases is
    rw [missing] at some
    cases some
  · rintro _ first _ h₁ _ _ ⟨_, _, rfl⟩
    obtain ⟨e, refused⟩ := refuses h₁.device.requests (TextureData.white first.dimension).descriptor
    simp only [TextureData.create, Device.createTexture, Device.ask, HostM.ends_bind,
      HostM.ends_get, HostM.ends_modify, HostM.ends_pure, refused]
    exact ⟨_, rfl⟩
  · rintro t _ ⟨none, rfl, _⟩
    rw [are] at none
    cases none

/-- A device that refuses no texture makes all that are missing. -/
theorem ensureDefaults_accepted
    (accepts : ∀ n descriptor, h.device.policy n (.texture descriptor) = none) :
    Attempt.Ends ensureDefaults table h fun r _ _ => r = .ok () := by
  refine ensureDefaults_rule
    (P := fun _ _ h' => ∀ n descriptor, h'.device.policy n (.texture descriptor) = none) accepts
    (fun _ _ _ _ _ _ held => held) (fun _ slot _ h₁ _ _ held => ?_) fun _ _ _ => rfl
  simp only [TextureData.create, Device.createTexture, Device.ask, HostM.ends_bind,
    HostM.ends_get, HostM.ends_modify, HostM.ends_pure, held]
  exact held

/-! ## Acquiring -/

/-- Freeing an index in use frees its slot, and nothing else happens. -/
theorem free_freeing {slot : Nat} (used : table.slots.isUsed slot = true) (h : Host) :
    Work.Ends (free (table.slots.base + slot)) table h fun freed table' h' =>
      freed = true ∧ table' = { table with slots := table.slots.freeing slot } ∧ h' = h := by
  have freed : table.slots.free (table.slots.base + slot) = .ok (table.slots.freeing slot) :=
    Slots.free_eq_ok_iff.2 ⟨slot, rfl, used, rfl⟩
  simp only [TextureTable.free, Work.ends_focus, Slots.giveBack, Work.ends_bind, Work.ends_get,
    freed]
  exact ⟨rfl, rfl, rfl⟩

/-- The table with a texture loaded into a slot. -/
def filling (table : TextureTable) (slot : Nat) (key : TextureKey) (texture : Handle) :
    TextureTable :=
  { table.writeView (table.slots.base + slot) texture key.dimension with
    slots := table.slots.taking slot
    entries := table.entries.insert key ⟨table.slots.base + slot, texture⟩ }

/-- The table with the cursor behind a slot. -/
def passing (table : TextureTable) (slot : Nat) : TextureTable :=
  { table with slots := { table.slots with cursor := (slot + 1) % table.slots.capacity } }

/-- What acquiring a path comes to: the slot of its entry, the default slot when no slot is free
or the loader fails, or a slot that was free. The loader is asked in the last two cases. -/
inductive Acquired (path : String) (dimension : TextureDimension) (table : TextureTable)
    (h : Host) : Nat → TextureTable → Host → Prop where
  | known {entry : TextureSlot} {slot : Nat}
      (there : table.entries.get? (.of path dimension) = some entry)
      (index : entry.index = table.slots.base + slot) (lt : slot < table.slots.capacity) :
      Acquired path dimension table h slot table h
  | full (absent : table.entries.get? (.of path dimension) = none)
      (full : table.slots.taken = table.slots.capacity) :
      Acquired path dimension table h (defaultIndex dimension) table
        { h with events := h.events ++ [.tableFull table.slots.capacity path] }
  | failed {slot : Nat} {e : DeviceError} {h' : Host}
      (absent : table.entries.get? (.of path dimension) = none)
      (free : table.slots.FirstFree slot) (asked : Loader.load path dimension h = (.error e, h')) :
      Acquired path dimension table h (defaultIndex dimension) (table.passing slot)
        { h' with events := h'.events ++ [.textureNotLoaded path e] }
  | loaded {slot : Nat} {texture : Handle} {h' : Host}
      (absent : table.entries.get? (.of path dimension) = none)
      (free : table.slots.FirstFree slot)
      (asked : Loader.load path dimension h = (.ok texture, h')) :
      Acquired path dimension table h slot (table.filling slot (.of path dimension) texture)
        { h' with events := h'.events ++ [.textureBound path dimension slot] }

theorem Sound.passing (sound : table.Sound) (slot : Nat) : (table.passing slot).Sound where
  holds := sound.holds.move fun positive => Nat.mod_lt _ positive
  sorted := sound.sorted
  views := sound.views
  made := sound.made

theorem Sound.filling (sound : table.Sound) {slot : Nat} (free : table.slots.FirstFree slot)
    {key : TextureKey} (absent : table.entries.get? key = none) (texture : Handle) :
    (table.filling slot key texture).Sound := by
  have entries := OrderedMap.perm_insert absent
    (⟨table.slots.base + slot, texture⟩ : TextureSlot)
  have fresh : table.slots.base + slot ∉ table.held := sound.holds.fresh free.free
  refine ⟨(sound.holds.taking free.lt free.free).perm ?_, sound.sorted.insert _ _, ?_, ?_⟩
  · exact ((entries.map Prod.snd).map TextureSlot.index).append_right _
  · intro key' entry mem
    rcases List.mem_cons.1 (entries.mem_iff.1 mem) with new | old
    · cases new
      exact OrderedMap.get?_insert_self _ _ _
    · refine (OrderedMap.get?_insert_of_ne _ (fun same => ?_) _).trans (sound.views old)
      exact fresh (same ▸ mem_held_of_entry old)
  · intro d mem texture' made
    refine (OrderedMap.get?_insert_of_ne _ (fun same => ?_) _).trans (sound.made mem made)
    exact fresh (same ▸ mem_held_of_default mem)

/-- What acquiring a path comes to in a sound table. -/
theorem acquire_acquired (sound : table.Sound) (path : String) (dimension : TextureDimension)
    (h : Host) : Work.Ends (acquire path dimension) table h (Acquired path dimension table h) := by
  cases is : table.entries.get? (.of path dimension) with
  | some entry =>
    obtain ⟨slot, index, lt, found⟩ := sound.indexOf? is
    refine acquire_rule (fun answer known => ?_) ?_ ?_
    · cases found.symm.trans known
      exact .known is index lt
    · intro absent
      cases found.symm.trans absent
    · intro _ _ absent
      cases found.symm.trans absent
  | none =>
    refine acquire_rule (fun answer known => ?_) (fun _ none => ?_) fun index slots _ took => ?_
    · rw [TextureTable.indexOf?, is] at known
      cases known
    · exact .full is ((Slots.allocate_eq_none_iff sound.holds.sound).1 none)
    · obtain ⟨slot, first, rfl, rfl⟩ := Slots.allocate_eq_some sound.holds.sound took
      rw [Slots.indexOf_eq sound.holds.room first.lt]
      unfold HostM.Ends
      generalize asked : Loader.load path dimension h = answer
      obtain ⟨e | texture, h'⟩ := answer
      · have used : ({ table with slots := table.slots.taking slot } :
            TextureTable).slots.isUsed slot = true := by
          dsimp only
          rw [Slots.isUsed_taking first.lt, beq_self_eq_true, Bool.or_true]
        refine (free_freeing used h').mono ?_
        rintro _ table₁ h₁ ⟨_, rfl, rfl⟩
        rw [Slots.freeing_taking first.lt first.free]
        exact .failed is first asked
      · have distance : (table.slots.taking slot).distance (table.slots.base + slot) = slot := by
          have room := sound.holds.room
          have lt := first.lt
          rw [Slots.distance, Slots.base_taking, Nat.add_assoc, Nat.add_sub_cancel_left,
            Nat.add_mod_right, Nat.mod_eq_of_lt (by omega)]
        dsimp only
        rw [distance]
        exact .loaded is first asked

theorem Acquired.sound {path : String} {dimension : TextureDimension} {slot : Nat}
    (acquired : Acquired path dimension table h slot table' h') (sound : table.Sound) :
    table'.Sound := by
  cases acquired with
  | known _ _ _ => exact sound
  | full _ _ => exact sound
  | failed _ _ _ => exact sound.passing _
  | loaded absent free _ => exact sound.filling free absent _

/-! ## Releasing -/

/-- Freeing indices that are held frees them, and nothing else happens. -/
theorem freeAll_ends {indices rest : List Nat} (holds : table.slots.Holds (indices ++ rest))
    (h : Host) :
    Work.Ends (freeAll indices) table h fun _ table' h' => h' = h ∧
      ∃ slots, table' = { table with slots := slots } ∧ slots.Holds rest ∧
        slots.capacity = table.slots.capacity ∧ slots.base = table.slots.base := by
  induction indices generalizing table with
  | nil => exact ⟨rfl, table.slots, rfl, holds, rfl, rfl⟩
  | cons index indices ih =>
    obtain ⟨slot, rfl, used⟩ := holds.exists_slot List.mem_cons_self
    have after : ({ table with slots := table.slots.freeing slot } : TextureTable).slots.Holds
        (indices ++ rest) := holds.freeing
    rw [freeAll, Work.ends_bind]
    refine (free_freeing used h).mono ?_
    rintro _ table₁ h₁ ⟨_, rfl, rfl⟩
    refine (ih after).mono ?_
    rintro _ table' h' ⟨rfl, slots, rfl, holds', capacity, base⟩
    exact ⟨rfl, slots, rfl, holds', capacity.trans (Slots.capacity_freeing _ slot), base⟩

/-- The entries of all other paths. -/
def others (table : TextureTable) (path : String) : OrderedMap TextureKey TextureSlot :=
  table.entries.filter fun k _ => k.path != Path.canonical path

/-- What releasing a path comes to: its entries are gone and their slots free, and nothing else
changes. -/
structure Released (path : String) (table table' : TextureTable) : Prop where
  heap : table'.heap = table.heap
  entries : table'.entries = table.others path
  defaults : table'.defaults = table.defaults
  sound : table'.Sound
  capacity : table'.slots.capacity = table.slots.capacity
  base : table'.slots.base = table.slots.base

/-- The indices that are held are those of a path, and the others. -/
theorem held_perm (table : TextureTable) (path : String) :
    ((table.entries.filter fun k _ => k.path == Path.canonical path).values.map TextureSlot.index ++
      { table with entries := table.others path }.held).Perm table.held := by
  have split := List.filter_append_perm (fun e : TextureKey × TextureSlot =>
    e.1.path == Path.canonical path) table.entries.entries
  have indices := ((split.map Prod.snd).map TextureSlot.index).append_right
    (table.defaults.map DefaultSlot.index)
  rw [List.map_append, List.map_append, List.append_assoc] at indices
  exact indices

theorem release_ends (sound : table.Sound) (path : String) (h : Host) :
    Work.Ends (release path) table h fun freed table' h' => h' = h ∧
      Released path table table' ∧
      (freed = true ↔ ∃ entry ∈ table.entries.entries, entry.1.path = Path.canonical path) := by
  unfold release
  simp only [Work.ends_bind, Work.ends_get, Work.ends_set]
  have left : ({ table with entries := table.others path } : TextureTable).slots.Holds
      ((table.entries.filter fun k _ => k.path == Path.canonical path).values.map
        TextureSlot.index ++ { table with entries := table.others path }.held) :=
    sound.holds.perm (table.held_perm path)
  refine (freeAll_ends left h).mono ?_
  rintro _ table' h' ⟨rfl, slots, rfl, holds, capacity, base⟩
  refine ⟨rfl, ⟨rfl, rfl, rfl, ⟨holds, sound.sorted.filter _, ?_, sound.made⟩, capacity, base⟩, ?_⟩
  · exact fun mem => sound.views (List.mem_of_mem_filter mem)
  · show (!_) = true ↔ _
    simp [OrderedMap.values, OrderedMap.filter]

/-- Clearing frees all slots, those of the default textures too. -/
theorem clear_ends (sound : table.Sound) (h : Host) :
    Work.Ends clear table h fun _ table' h' => h' = h ∧ table'.Sound ∧ table'.heap = table.heap ∧
      table'.entries = .empty ∧ table'.defaults = [] ∧
      table'.slots.capacity = table.slots.capacity ∧ table'.slots.base = table.slots.base := by
  unfold clear
  simp only [Work.ends_bind, Work.ends_get, Work.ends_set]
  have all : ({ table with entries := .empty, defaults := [] } : TextureTable).slots.Holds
      (table.entries.values.map TextureSlot.index ++ table.defaults.map DefaultSlot.index) :=
    sound.holds
  refine (freeAll_ends all h).mono ?_
  rintro _ table₁ h₁ ⟨rfl, slots₁, rfl, holds₁, capacity₁, base₁⟩
  have defaults : (⟨table.heap, slots₁, .empty, []⟩ : TextureTable).slots.Holds
      (table.defaults.map DefaultSlot.index ++ []) := by
    rw [List.append_nil]
    exact holds₁
  refine (freeAll_ends defaults h₁).mono ?_
  rintro _ table₂ h₂ ⟨rfl, slots₂, rfl, holds₂, capacity₂, base₂⟩
  refine ⟨rfl, ⟨holds₂, OrderedMap.sorted_empty, ?_, ?_⟩, rfl, rfl, rfl,
    capacity₂.trans capacity₁, base₂.trans base₁⟩
  · exact fun mem => absurd mem List.not_mem_nil
  · exact fun mem => absurd mem List.not_mem_nil

end TextureTable

end SurfaceShading
