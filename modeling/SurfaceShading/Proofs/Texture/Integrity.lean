/-
  Requests for textures. However they follow on each other, and whatever the loader and the device
  do, entries, allocated indices and views of the heap stay in step, and each request does what is
  said of it (`TextureTable.run_intact`). An entry belongs to a path by its components
  (`Path.canonical_eq_iff`).
-/
import SurfaceShading.Proofs.Path
import SurfaceShading.Proofs.Texture.Table

namespace SurfaceShading

/-! ## Questions to the loader -/

theorem TextureData.create_loader (t : TextureData) (h : Host) :
    HostM.Ends t.create h fun _ h' => h'.loader = h.loader :=
  t.create_rule (fun _ => rfl) rfl

/-- A loader that makes textures up keeps what it was asked for. -/
theorem Loader.load_stub {h : Host} {missing requests : List String}
    (stub : h.loader = .stub missing requests) (path : String) (dimension : TextureDimension) :
    HostM.Ends (load path dimension) h fun _ h' =>
      h'.loader = .stub missing (requests ++ [path]) := by
  unfold load
  rw [HostM.ends_bind, HostM.ends_get, stub]
  dsimp only [loadStub]
  rw [HostM.ends_bind, HostM.ends_modify]
  split
  · rfl
  · exact (stubData path dimension).create_loader _

namespace TextureTable

variable {table table' : TextureTable} {h h' : Host} {capacity base : Nat}

/-! ## Default slots -/

/-- The default slots are the first slots, as far as there are slots. -/
structure Reserves (table : TextureTable) (capacity base : Nat) : Prop where
  size : table.slots.capacity = capacity
  start : table.slots.base = base
  defaults : table.defaults.map (fun d => (d.dimension, d.index)) =
    ([TextureDimension.d2, .cube].take capacity).map fun dimension =>
      (dimension, base + defaultIndex dimension)

theorem reserve_of_full (dimension : TextureDimension)
    (full : table.slots.taken = table.slots.capacity) : table.reserve dimension = table := by
  unfold reserve Slots.allocate
  rw [if_pos full]

/-- A free slot at the cursor is the one that is kept. -/
theorem reserve_of_free (sound : table.Sound) (dimension : TextureDimension)
    (lt : table.slots.cursor < table.slots.capacity)
    (free : table.slots.isUsed table.slots.cursor = false) :
    table.reserve dimension = { table with
      slots := table.slots.taking table.slots.cursor
      defaults := table.defaults ++
        [⟨dimension, table.slots.base + table.slots.cursor, none⟩] } := by
  have notFull := (Slots.allocate_eq_none_iff sound.holds.sound).not.2
    (Nat.ne_of_lt (sound.holds.sound.taken_lt lt free))
  obtain ⟨⟨index, slots⟩, took⟩ := Option.ne_none_iff_exists'.1 notFull
  obtain ⟨slot, first, rfl, rfl⟩ := Slots.allocate_eq_some sound.holds.sound took
  obtain rfl := first.eq_cursor lt free
  unfold reserve
  rw [took, Slots.indexOf_eq sound.holds.room lt]

theorem reserves_new (room : base + capacity ≤ indexSpace) :
    (new capacity base).Reserves capacity base := by
  have size : (Slots.new capacity base).capacity = capacity := Slots.capacity_new capacity base
  have free := Slots.isUsed_new capacity base
  have sound : (vacant capacity base).Sound := sound_vacant room
  have twice : new capacity base = ((vacant capacity base).reserve .d2).reserve .cube := rfl
  rcases Nat.eq_zero_or_pos capacity with rfl | positive
  · exact ⟨rfl, rfl, rfl⟩
  have lt : 0 < (Slots.new capacity base).capacity := by
    rw [size]
    exact positive
  have sound₁ := sound.reserve .d2
  rw [reserve_of_free sound .d2 lt (free 0)] at sound₁ twice
  rcases Nat.eq_or_lt_of_le positive with rfl | more
  · rw [twice, reserve_of_full .cube rfl]
    exact ⟨rfl, rfl, rfl⟩
  · have cursor : ((Slots.new capacity base).taking 0).cursor = 1 :=
      Nat.mod_eq_of_lt (size.symm ▸ more)
    have free₁ : ((Slots.new capacity base).taking 0).isUsed 1 = false := by
      rw [Slots.isUsed_taking lt, free]
      rfl
    have lt₁ : ((Slots.new capacity base).taking 0).cursor <
        ((Slots.new capacity base).taking 0).capacity := by
      rw [cursor, Slots.capacity_taking, size]
      exact more
    have second := reserve_of_free sound₁ .cube lt₁ (cursor.symm ▸ free₁)
    rw [twice, second]
    refine ⟨?_, rfl, ?_⟩
    · show (((Slots.new capacity base).taking 0).taking _).capacity = capacity
      rw [Slots.capacity_taking, Slots.capacity_taking, size]
    · have both : [TextureDimension.d2, .cube].take capacity = [.d2, .cube] :=
        List.take_of_length_le more
      show [(TextureDimension.d2, base + 0),
        (.cube, base + ((Slots.new capacity base).taking 0).cursor)] = _
      rw [both, cursor]
      rfl

theorem Reserves.length (reserves : table.Reserves capacity base) :
    table.defaults.length = min 2 capacity := by
  have lengths := congrArg List.length reserves.defaults
  rw [List.length_map, List.length_map, List.length_take, Nat.min_comm] at lengths
  exact lengths

/-- The default slot of a shape, if there are enough slots. -/
theorem Reserves.exists_default (reserves : table.Reserves capacity base)
    {dimension : TextureDimension} (room : defaultIndex dimension < capacity) :
    ∃ d ∈ table.defaults, d.dimension = dimension ∧ d.index = base + defaultIndex dimension := by
  have kept : dimension ∈ [TextureDimension.d2, .cube].take capacity := by
    cases dimension with
    | d2 =>
      obtain ⟨n, rfl⟩ := Nat.exists_eq_succ_of_ne_zero (Nat.ne_of_gt room)
      exact List.mem_cons_self
    | cube =>
      rw [List.take_of_length_le (show 2 ≤ capacity from room)]
      exact List.mem_cons_of_mem _ List.mem_cons_self
  have mem := List.mem_map_of_mem (f := fun dimension => (dimension, base + defaultIndex dimension))
    kept
  rw [← reserves.defaults] at mem
  obtain ⟨d, mem, same⟩ := List.mem_map.1 mem
  exact ⟨d, mem, congrArg Prod.fst same, congrArg Prod.snd same⟩

/-- The same slots, with the same of them for default textures. -/
structure KeepsSlots (table table' : TextureTable) : Prop where
  size : table'.slots.capacity = table.slots.capacity
  start : table'.slots.base = table.slots.base
  defaults : table'.defaults.map (fun d => (d.dimension, d.index)) =
    table.defaults.map fun d => (d.dimension, d.index)

theorem Reserves.keeps (reserves : table.Reserves capacity base)
    (keeps : KeepsSlots table table') : table'.Reserves capacity base where
  size := keeps.size.trans reserves.size
  start := keeps.start.trans reserves.start
  defaults := keeps.defaults.trans reserves.defaults

theorem Stocked.keepsSlots (stocked : Stocked table h table' h') : KeepsSlots table table' where
  size := by rw [stocked.slots]
  start := by rw [stocked.slots]
  defaults := by
    refine List.ext_getElem (by simp [stocked.length]) fun i lt lt' => ?_
    rw [List.length_map] at lt'
    obtain ⟨d', is', kept⟩ := stocked.kept (List.getElem?_eq_getElem lt')
    obtain ⟨_, rfl⟩ := List.getElem?_eq_some_iff.1 is'
    rw [List.getElem_map, List.getElem_map, kept.dimension, kept.index]

theorem Acquired.keepsSlots {path : String} {dimension : TextureDimension} {answer : Nat}
    (acquired : Acquired path dimension table h answer table' h') : KeepsSlots table table' := by
  cases acquired with
  | known _ _ _ => exact ⟨rfl, rfl, rfl⟩
  | full _ _ => exact ⟨rfl, rfl, rfl⟩
  | failed _ _ _ => exact ⟨rfl, rfl, rfl⟩
  | loaded _ _ _ => exact ⟨Slots.capacity_taking _ _, rfl, rfl⟩

theorem Released.keepsSlots {path : String} (released : Released path table table') :
    KeepsSlots table table' where
  size := released.capacity
  start := released.base
  defaults := by rw [released.defaults]

/-! ## Requests -/

/-- What a table is asked for while the world changes at will. -/
inductive Request where
  | world (h : Host)
  | ensureDefaults
  | acquire (path : String) (dimension : TextureDimension)
  | release (path : String)

/-- A table and the world that it works in after a request. -/
def step (s : TextureTable × Host) : Request → TextureTable × Host
  | .world h => (s.1, h)
  | .ensureDefaults =>
    let ((_, table), h) := (ensureDefaults.run.run s.1).run s.2
    (table, h)
  | .acquire path dimension =>
    let ((_, table), h) := ((acquire path dimension).run s.1).run s.2
    (table, h)
  | .release path =>
    let ((_, table), h) := ((release path).run s.1).run s.2
    (table, h)

/-- A table and the world after requests in order. -/
def run (s : TextureTable × Host) (requests : List Request) : TextureTable × Host :=
  requests.foldl step s

theorem step_sound {s : TextureTable × Host} (sound : s.1.Sound)
    (reserves : s.1.Reserves capacity base) (request : Request) :
    (step s request).1.Sound ∧ (step s request).1.Reserves capacity base := by
  obtain ⟨table, h⟩ := s
  cases request with
  | world h' => exact ⟨sound, reserves⟩
  | ensureDefaults =>
    have ends : Attempt.Ends TextureTable.ensureDefaults table h fun _ table' _ =>
        table'.Sound ∧ table'.Reserves capacity base :=
      (ensureDefaults_ends sound h).mono fun _ _ _ ⟨stocked, _⟩ =>
        ⟨stocked.sound, reserves.keeps stocked.keepsSlots⟩
    exact ends
  | acquire path dimension =>
    have ends : Work.Ends (TextureTable.acquire path dimension) table h fun _ table' _ =>
        table'.Sound ∧ table'.Reserves capacity base :=
      (acquire_acquired sound path dimension h).mono fun _ _ _ acquired =>
        ⟨acquired.sound sound, reserves.keeps acquired.keepsSlots⟩
    exact ends
  | release path =>
    have ends : Work.Ends (TextureTable.release path) table h fun _ table' _ =>
        table'.Sound ∧ table'.Reserves capacity base :=
      (release_ends sound path h).mono fun _ _ _ ⟨_, released, _⟩ =>
        ⟨released.sound, reserves.keeps released.keepsSlots⟩
    exact ends

theorem run_sound {s : TextureTable × Host} (sound : s.1.Sound)
    (reserves : s.1.Reserves capacity base) (requests : List Request) :
    (run s requests).1.Sound ∧ (run s requests).1.Reserves capacity base := by
  induction requests generalizing s with
  | nil => exact ⟨sound, reserves⟩
  | cons request rest ih =>
    obtain ⟨sound', reserves'⟩ := step_sound sound reserves request
    exact ih sound' reserves'

/-! ## What holds of the table -/

/-- Entries hold slots of their own, which are allocated and are no default slots, the count is
that of the entries and default slots, and the heap has the view of every entry at its slot. -/
structure Intact (table : TextureTable) (capacity base : Nat) : Prop where
  distinct : ∀ {key key' entry entry'}, table.entries.get? key = some entry →
    table.entries.get? key' = some entry' → entry.index = entry'.index → key = key'
  allocated : ∀ {key entry}, table.entries.get? key = some entry →
    table.slots.isAllocated entry.index = true
  reserved : ∀ {key entry}, table.entries.get? key = some entry →
    ∀ dimension, entry.index ≠ base + defaultIndex dimension
  count : table.slots.taken = table.size + min 2 capacity
  views : ∀ {key entry}, table.entries.get? key = some entry →
    table.heap.views.get? entry.index = some ⟨entry.texture, key.dimension⟩

theorem Sound.intact (sound : table.Sound) (reserves : table.Reserves capacity base) :
    table.Intact capacity base where
  distinct := by
    intro key key' entry entry' is is' same
    have nodup := (List.nodup_append.1 sound.holds.distinct).1
    rw [OrderedMap.values, List.map_map] at nodup
    have both : (key, entry) = (key', entry') := List.inj_on_of_nodup_map nodup
      (OrderedMap.mem_of_get? is) (OrderedMap.mem_of_get? is') same
    exact congrArg Prod.fst both
  allocated is :=
    (sound.holds.allocated _).2 (mem_held_of_entry (OrderedMap.mem_of_get? is))
  reserved {key entry} is dimension same := by
    have mem := OrderedMap.mem_of_get? is
    obtain ⟨slot, index, used⟩ := sound.holds.exists_slot (mem_held_of_entry mem)
    have lt := Slots.lt_of_isUsed used
    rw [reserves.size] at lt
    rw [reserves.start] at index
    have first : defaultIndex dimension < capacity := by omega
    obtain ⟨d, mem', _, index'⟩ := reserves.exists_default first
    exact sound.entry_ne_default mem mem' (same.trans index'.symm)
  count := by rw [sound.taken, reserves.length]
  views is := sound.views (OrderedMap.mem_of_get? is)

/-! ## What the next request does -/

/-- A request for a path asks the loader: the path has no entry, and a slot is free. -/
def Asks (table : TextureTable) (path : String) (dimension : TextureDimension) : Prop :=
  table.entries.get? (.of path dimension) = none ∧ table.slots.taken < table.slots.capacity

instance (table : TextureTable) (path : String) (dimension : TextureDimension) :
    Decidable (table.Asks path dimension) := inferInstanceAs (Decidable (_ ∧ _))

/-- The world after the loader was asked, if it is. -/
def consulted (table : TextureTable) (path : String) (dimension : TextureDimension) (h : Host) :
    Host := if table.Asks path dimension then (Loader.load path dimension h).2 else h

/-- What is said of acquiring a path: the answer is the slot of its entry, if it has one
afterwards. It has none if it had none and no slot was free or the loader failed; then the answer
is the default slot and nothing has changed in the table. The loader is asked at most once, and
only for a path without entry while a slot is free. -/
structure Acquires (path : String) (dimension : TextureDimension) (table : TextureTable)
    (h : Host) (answer : Nat) (table' : TextureTable) (h' : Host) : Prop where
  live : ∀ {entry}, table'.entries.get? (.of path dimension) = some entry →
    table'.indexOf? path dimension = some answer ∧ entry.index = table.slots.base + answer
  absent : table'.entries.get? (.of path dimension) = none ↔
    table.entries.get? (.of path dimension) = none ∧
      (table.slots.taken = table.slots.capacity ∨
        ∃ e, (Loader.load path dimension h).1 = .error e)
  unchanged : table'.entries.get? (.of path dimension) = none →
    answer = defaultIndex dimension ∧ table'.entries = table.entries ∧
      table'.slots.bitmap = table.slots.bitmap ∧ table'.slots.taken = table.slots.taken ∧
      table'.heap = table.heap
  others : ∀ key, key ≠ .of path dimension → table'.entries.get? key = table.entries.get? key
  asked : ∃ events, h' = { table.consulted path dimension h with
    events := (table.consulted path dimension h).events ++ events }
  requests : ∀ {missing requests}, h.loader = .stub missing requests →
    h'.loader = .stub missing (if table.Asks path dimension then requests ++ [path] else requests)

theorem consulted_loader {missing requests : List String} (stub : h.loader = .stub missing requests)
    (path : String) (dimension : TextureDimension) :
    (table.consulted path dimension h).loader =
      .stub missing (if table.Asks path dimension then requests ++ [path] else requests) := by
  unfold consulted
  split
  · exact Loader.load_stub stub path dimension
  · exact stub

theorem Acquired.asked {path : String} {dimension : TextureDimension} {answer : Nat}
    (sound : table.Sound) (acquired : Acquired path dimension table h answer table' h') :
    ∃ events, h' = { table.consulted path dimension h with
      events := (table.consulted path dimension h).events ++ events } := by
  unfold consulted
  cases acquired with
  | known there _ _ =>
    have not : ¬ table.Asks path dimension := fun asks => by
      rw [asks.1] at there
      cases there
    exact ⟨[], by rw [if_neg not, List.append_nil]⟩
  | full _ full =>
    have not : ¬ table.Asks path dimension := fun asks => Nat.ne_of_lt asks.2 full
    exact ⟨[.tableFull table.slots.capacity path], by rw [if_neg not]⟩
  | failed absent free asked =>
    have asks : table.Asks path dimension :=
      ⟨absent, sound.holds.sound.taken_lt free.lt free.free⟩
    exact ⟨_, by rw [if_pos asks, asked]⟩
  | loaded absent free asked =>
    have asks : table.Asks path dimension :=
      ⟨absent, sound.holds.sound.taken_lt free.lt free.free⟩
    exact ⟨_, by rw [if_pos asks, asked]⟩

theorem Acquired.acquires {path : String} {dimension : TextureDimension} {answer : Nat}
    (sound : table.Sound) (acquired : Acquired path dimension table h answer table' h') :
    Acquires path dimension table h answer table' h' := by
  have sound' := acquired.sound sound
  have asked := acquired.asked sound
  have requests {missing requests} (stub : h.loader = .stub missing requests) :
      h'.loader =
        .stub missing (if table.Asks path dimension then requests ++ [path] else requests) := by
    obtain ⟨events, rfl⟩ := asked
    exact consulted_loader stub path dimension
  cases acquired with
  | @known entry _ there index _ =>
    obtain ⟨slot, index', _, found⟩ := sound'.indexOf? there
    obtain rfl : answer = slot := Nat.add_left_cancel (index.symm.trans index')
    refine ⟨fun is => ?_, ?_, fun none => ?_, fun _ _ => rfl, asked, requests⟩
    · cases there.symm.trans is
      exact ⟨found, index⟩
    · rw [there]
      exact iff_of_false nofun (nofun ∘ And.left)
    · rw [there] at none
      cases none
  | full absent full =>
    refine ⟨fun is => ?_, iff_of_true absent ⟨absent, .inl full⟩,
      fun _ => ⟨rfl, rfl, rfl, rfl, rfl⟩, fun _ _ => rfl, asked, requests⟩
    cases absent.symm.trans is
  | @failed _ e _ absent free failed =>
    refine ⟨fun is => ?_, iff_of_true absent ⟨absent, .inr ⟨e, ?_⟩⟩,
      fun _ => ⟨rfl, rfl, rfl, rfl, rfl⟩, fun _ _ => rfl, asked, requests⟩
    · cases absent.symm.trans is
    · rw [failed]
  | @loaded _ texture h₁ absent free loaded =>
    have room := sound.holds.sound.taken_lt free.lt free.free
    have there : (table.filling answer (.of path dimension) texture).entries.get?
        (.of path dimension) = some ⟨table.slots.base + answer, texture⟩ :=
      OrderedMap.get?_insert_self _ _ _
    obtain ⟨slot, index, _, found⟩ := sound'.indexOf? there
    obtain rfl : answer = slot := Nat.add_left_cancel index
    refine ⟨fun is => ?_, ?_, fun none => ?_, fun key other => ?_, asked, requests⟩
    · cases there.symm.trans is
      exact ⟨found, rfl⟩
    · rw [there, loaded]
      refine iff_of_false nofun ?_
      rintro ⟨_, full | ⟨e, failed⟩⟩
      · exact Nat.ne_of_lt room full
      · cases failed
    · rw [there] at none
      cases none
    · exact OrderedMap.get?_insert_of_ne _ other _

/-- What is said of releasing a path: its entries in both shapes are gone, and just their slots
are free again. -/
structure Releases (path : String) (table : TextureTable) (freed : Bool) (table' : TextureTable) :
    Prop where
  entries : ∀ key, table'.entries.get? key =
    if key.path = Path.canonical path then none else table.entries.get? key
  allocated : ∀ index, table'.slots.isAllocated index = true ↔
    table.slots.isAllocated index = true ∧ ¬ ∃ dimension entry,
      table.entries.get? (.of path dimension) = some entry ∧ entry.index = index
  freed : freed = true ↔ ∃ dimension entry,
    table.entries.get? (.of path dimension) = some entry
  heap : table'.heap = table.heap

/-- The entries of a path, which has one for a shape at most. -/
theorem Sound.mem_path_iff (sound : table.Sound) {path : String} {entry : TextureSlot} :
    (∃ key, (key, entry) ∈ table.entries.entries ∧ key.path = Path.canonical path) ↔
      ∃ dimension, table.entries.get? (.of path dimension) = some entry := by
  constructor
  · rintro ⟨⟨_, dimension⟩, mem, rfl⟩
    exact ⟨dimension, sound.sorted.get?_eq_some_iff.2 mem⟩
  · rintro ⟨dimension, is⟩
    exact ⟨_, OrderedMap.mem_of_get? is, rfl⟩

theorem Released.releases {path : String} {freed : Bool} (sound : table.Sound)
    (released : Released path table table')
    (was : freed = true ↔ ∃ entry ∈ table.entries.entries, entry.1.path = Path.canonical path) :
    Releases path table freed table' where
  entries key := by
    rw [released.entries, others, sound.sorted.get?_filter]
    by_cases same : key.path = Path.canonical path
    · cases table.entries.get? key <;> simp [same]
    · cases table.entries.get? key <;> simp [same]
  allocated index := by
    have perm := table.held_perm path
    have held : table'.held = { table with entries := table.others path }.held := by
      rw [TextureTable.held, TextureTable.held, released.entries, released.defaults]
    rw [← held] at perm
    have disjoint := (List.nodup_append.1 (perm.nodup_iff.2 sound.holds.distinct)).2.2
    have freed : index ∈ (table.entries.filter fun k _ =>
        k.path == Path.canonical path).values.map TextureSlot.index ↔ ∃ dimension entry,
          table.entries.get? (.of path dimension) = some entry ∧ entry.index = index := by
      simp only [List.mem_map, OrderedMap.values, OrderedMap.filter, List.mem_filter, beq_iff_eq]
      constructor
      · rintro ⟨_, ⟨⟨key, entry⟩, ⟨mem, same⟩, rfl⟩, is⟩
        obtain ⟨dimension, there⟩ := sound.mem_path_iff.1 ⟨key, mem, same⟩
        exact ⟨dimension, entry, there, is⟩
      · rintro ⟨dimension, entry, there, is⟩
        exact ⟨entry, ⟨_, ⟨OrderedMap.mem_of_get? there, rfl⟩, rfl⟩, is⟩
    rw [released.sound.holds.allocated, sound.holds.allocated, ← perm.mem_iff, List.mem_append,
      ← freed]
    constructor
    · exact fun mem => ⟨.inr mem, fun mem' => disjoint _ mem' _ mem rfl⟩
    · rintro ⟨mem, other⟩
      exact mem.resolve_left other
  freed := by
    rw [was]
    constructor
    · rintro ⟨⟨key, entry⟩, mem, same⟩
      obtain ⟨dimension, is⟩ := sound.mem_path_iff.1 ⟨key, mem, same⟩
      exact ⟨dimension, entry, is⟩
    · rintro ⟨dimension, entry, is⟩
      exact ⟨_, OrderedMap.mem_of_get? is, rfl⟩
  heap := released.heap

/-- **The table of textures stays intact.** After any requests, while the world changes at will,
live entries hold allocated slots of their own that are no default slots, the count is that of
the entries and default slots, and each entry has the view of its texture in the heap. Acquiring
a path then answers with its slot or, if none is free or the loader fails, with the default slot,
and the table is as before; releasing a path frees its slots and no others. -/
theorem run_intact (room : base + capacity ≤ indexSpace) (h : Host) (requests : List Request) :
    ∃ table h', run (new capacity base, h) requests = (table, h') ∧ table.Intact capacity base ∧
      (∀ path dimension, Work.Ends (acquire path dimension) table h'
        (Acquires path dimension table h')) ∧
      ∀ path, Work.Ends (release path) table h' fun freed table' h'' =>
        Releases path table freed table' ∧ h'' = h' := by
  obtain ⟨sound, reserves⟩ :=
    run_sound (s := (new capacity base, h)) (sound_new room) (reserves_new room) requests
  refine ⟨_, _, rfl, sound.intact reserves, fun path dimension => ?_, fun path => ?_⟩
  · exact (acquire_acquired sound path dimension _).mono fun _ _ _ acquired =>
      acquired.acquires sound
  · exact (release_ends sound path _).mono fun _ _ _ ⟨same, released, freed⟩ =>
      ⟨released.releases sound freed, same⟩

/-- A table of three slots, in which one path is used in both shapes and released. -/
theorem run_intact_three :
    10 + 3 ≤ indexSpace ∧ ∃ table h', run (new 3 10, .new (.stub [] []) .empty)
        [.ensureDefaults, .acquire "wood.png" .d2, .acquire "wood.png" .cube, .release "wood.png",
          .acquire "wood.png" .cube] = (table, h') ∧
      table.Intact 3 10 ∧
      (∀ path dimension, Work.Ends (acquire path dimension) table h'
        (Acquires path dimension table h')) ∧
      ∀ path, Work.Ends (release path) table h' fun freed table' h'' =>
        Releases path table freed table' ∧ h'' = h' :=
  ⟨by decide, run_intact (by decide) _ _⟩

end TextureTable

end SurfaceShading
