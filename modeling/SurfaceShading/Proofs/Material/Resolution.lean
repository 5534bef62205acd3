/-
  Resolving the textures of a material. Each path is looked up in the shape of the first parameter
  of its name (`Material.shape`), and the index that is kept for it is that of the path, or that
  of the default slot of the shape (`Material.Indexed`). The indices are packed as they are: the
  constant buffer has each at the place of its parameter (`Material.slice_packed_texture`).
-/
import SurfaceShading.Proofs.Material.Ownership
import SurfaceShading.Proofs.Material.Packing
import SurfaceShading.Proofs.Texture.Views

namespace SurfaceShading.Material

variable {m : Material} {table : TextureTable} {h : Host} {capacity base : Nat}
  {kept : List (TextureDimension × Nat)}

/-! ## Indices of textures -/

/-- The shape in which the path of a texture parameter is resolved: that of the first parameter
of the name, and flat if that one is no texture. -/
def shape (m : Material) (name : String) : TextureDimension :=
  ((m.shader.parameter? name).bind fun p => p.type.dimension?).getD .d2

/-- The parameter has a path, and its index is that of the path. -/
def Resolved (m : Material) (table : TextureTable) (name : String) : Prop :=
  ∃ path, m.texturePaths.get? name = some path ∧
    table.Found path (m.shape name) (m.textureIndex name)

/-- Every index that is kept is that of the path, or that of the default slot. -/
def Indexed (m : Material) (table : TextureTable) : Prop :=
  ∀ name index, m.textureIndices.get? name = some index →
    (∃ path, m.texturePaths.get? name = some path ∧ table.Found path (m.shape name) index) ∨
      index = TextureTable.defaultIndex (m.shape name)

theorem textureIndex_eq (m : Material) (name : String) : m.textureIndex name =
    (m.textureIndices.get? name).getD (TextureTable.defaultIndex (m.shape name)) := by
  unfold textureIndex shape
  cases m.textureIndices.get? name with
  | some index => rfl
  | none =>
    cases (m.shader.parameter? name).bind fun p => p.type.dimension? with
    | some dimension => rfl
    | none => rfl

/-- A parameter that was not resolved has the index of the default slot. -/
theorem Indexed.resolved_or (indexed : m.Indexed table) (name : String) :
    m.Resolved table name ∨ m.textureIndex name = TextureTable.defaultIndex (m.shape name) := by
  rw [Resolved, textureIndex_eq]
  cases is : m.textureIndices.get? name with
  | some index => exact indexed name index is
  | none => exact .inr rfl

/-- If the names of the properties differ, the shape is the one that a parameter declares. -/
theorem shape_of_distinct {properties : List Property}
    (layout : m.shader.layout = Layout.ofProperties properties)
    (distinct : (properties.map Property.name).Nodup) {q : Parameter}
    (mem : q ∈ m.shader.layout.parameters) {dimension : TextureDimension}
    (is : q.type = .texture dimension) : m.shape q.name = dimension := by
  have names := Layout.nodup_names distinct
  rw [← layout] at names
  have own : m.shader.parameter? q.name = some q := Layout.parameter?_of_mem names mem
  rw [shape, own, Option.bind_some, is]
  rfl

/-! ## New materials -/

/-- No path of the material is resolved yet. -/
structure Fresh (m : Material) : Prop where
  unindexed : ∀ name, m.textureIndices.get? name = none
  sorted : m.texturePaths.Sorted

theorem fresh_new (name : String) (object : ShaderId) (shader : Shader) :
    (new name object shader).Fresh := ⟨fun _ => rfl, OrderedMap.sorted_empty⟩

theorem Fresh.indexed (fresh : m.Fresh) (table : TextureTable) : m.Indexed table :=
  fun name _ is => nomatch (fresh.unindexed name).symm.trans is

/-- Applying a file resolves nothing. -/
theorem applyFile_fresh (file : MaterialFile) (fresh : m.Fresh) :
    Work.Ends (applyFile file) m h fun _ m' _ => m'.Fresh := by
  let Stays (m m' : Material) : Prop := m.Fresh → m'.Fresh
  have refl : Std.Refl Stays := ⟨fun _ => id⟩
  have trans : Trans Stays Stays Stays := ⟨fun first second => second ∘ first⟩
  have value {m m' : Material} {name : String} {value : Value}
      (set : m.setValue name value = .ok m') : Stays m m' := by
    obtain ⟨_, _, made⟩ := except_bind_eq_ok.1 set
    split at made
    · cases made
    · split at made
      · cases made
      · cases made
        exact fun fresh => ⟨fresh.unindexed, fresh.sorted⟩
  have path {m m' : Material} {name path : String} (set : m.setTexturePath name path = .ok m') :
      Stays m m' := by
    obtain ⟨_, _, made⟩ := except_bind_eq_ok.1 set
    split at made
    · cases made
      refine fun fresh => ⟨fun other => ?_, fresh.sorted.insert _ _⟩
      show (m.textureIndices.erase name).get? other = none
      rw [OrderedMap.get?_erase, fresh.unindexed, ite_self]
    · cases made
  exact (applyFile_ends value path file m h).mono fun _ _ _ stays => stays fresh

/-- So does making the buffer, and the material stays one of its name and shader. -/
theorem applyFile_createBuffer_fresh (file : MaterialFile) (fresh : m.Fresh) :
    Attempt.Ends (do
      Material.applyFile file
      Material.createBuffer : Attempt Material Unit) m h fun _ m' _ =>
        m'.Fresh ∧ m'.shader = m.shader ∧ m'.name = m.name := by
  rw [Attempt.ends_bind, Attempt.ends_liftWork]
  refine ((applyFile_fresh file fresh).and
    (applyFile_ends setValue_same setTexturePath_same file m h)).mono ?_
  rintro _ m₁ h₁ ⟨fresh₁, same⟩
  refine (createBuffer_ends m₁ h₁).mono ?_
  intro _ m₂ h₂ made
  cases made with
  | unneeded _ => exact ⟨fresh₁, same.shader, same.name⟩
  | refused _ _ _ => exact ⟨fresh₁, same.shader, same.name⟩
  | made _ _ _ _ _ _ => exact ⟨⟨fresh₁.unindexed, fresh₁.sorted⟩, same.shader, same.name⟩

/-! ## Resolving -/

theorem mem_unresolved (sorted : m.texturePaths.Sorted) {name path : String}
    {dimension : TextureDimension} (mem : (name, path, dimension) ∈ m.unresolved) :
    m.texturePaths.get? name = some path ∧ m.shape name = dimension := by
  obtain ⟨⟨name', path'⟩, mem, is⟩ := List.mem_filterMap.1 mem
  dsimp only at is
  split at is
  · cases is
  · obtain ⟨dimension', some, eq⟩ := Option.map_eq_some_iff.1 is
    cases eq
    exact ⟨sorted.get?_eq_some_iff.2 mem, by rw [shape, some, Option.getD_some]⟩

/-- One more path is resolved. -/
theorem Indexed.insert {table' : TextureTable} (indexed : m.Indexed table)
    (grows : table.Grows table') {name path : String} {index : Nat}
    (is : m.texturePaths.get? name = some path)
    (answers : table'.Found path (m.shape name) index ∨
      index = TextureTable.defaultIndex (m.shape name)) :
    Indexed { m with textureIndices := m.textureIndices.insert name index } table' := by
  intro name' index' is'
  dsimp only at is'
  rw [OrderedMap.get?_insert] at is'
  split at is'
  · next same =>
    cases is'
    rw [same]
    exact answers.imp_left fun found => ⟨path, is, found⟩
  · refine (indexed name' index' is').imp_left ?_
    rintro ⟨path', there, found⟩
    exact ⟨path', there, found.grows grows⟩

/-- Resolving leaves a table equipped and adds to it what it finds. -/
theorem resolve_finds (parameters : List (String × String × TextureDimension)) (m : Material)
    (table : TextureTable) (h : Host) (equipped : table.Equipped capacity base kept h) :
    Work.Ends (resolve parameters) (m, table) h fun _ s' h' =>
      s'.2.Equipped capacity base kept h' ∧ table.Grows s'.2 ∧
        ((∀ p ∈ parameters, m.texturePaths.get? p.1 = some p.2.1 ∧ m.shape p.1 = p.2.2) →
          m.Indexed table → s'.1.Indexed s'.2) := by
  refine (resolve_rule (P := fun rest m₁ table₁ h₁ =>
    table₁.Equipped capacity base kept h₁ ∧ table.Grows table₁ ∧
      ((∀ p ∈ parameters, m.texturePaths.get? p.1 = some p.2.1 ∧ m.shape p.1 = p.2.2) →
        m.Indexed table → m₁.Indexed table₁ ∧
          ∀ p ∈ rest, m₁.texturePaths.get? p.1 = some p.2.1 ∧ m₁.shape p.1 = p.2.2))
    ?_ ⟨equipped, .refl table, fun asked indexed => ⟨indexed, asked⟩⟩).mono
      fun _ _ _ ⟨equipped', grows, indexed⟩ => ⟨equipped', grows, fun asked before =>
        (indexed asked before).1⟩
  rintro name path dimension rest m₁ table₁ h₁ ⟨equipped₁, grows, indexed⟩
  refine ((TextureTable.acquire_acquired equipped₁.sound path dimension h₁).and
    (TextureTable.acquire_keeps path dimension table₁ h₁)).mono ?_
  rintro index table₂ h₂ ⟨acquired, kept⟩
  refine ⟨equipped₁.acquired acquired kept.toSpares.toBuilds, grows.trans acquired.grows,
    fun asked before => ?_⟩
  obtain ⟨indexed₁, asked₁⟩ := indexed asked before
  obtain ⟨⟨is, same⟩, later⟩ := List.forall_mem_cons.1 asked₁
  exact ⟨indexed₁.insert acquired.grows is (same.symm ▸ acquired.answers), later⟩

/-! ## Packing what was resolved -/

/-- A material as its textures are in a table, with its indices packed. -/
structure Settled (m : Material) (table : TextureTable) : Prop where
  indexed : m.Indexed table
  packed : m.staging = m.packed

/-- An update packs the material, unless it is refused a buffer that it does not have. -/
theorem update_packs (m : Material) (h : Host) :
    Attempt.Ends update m h fun r m' _ => ∃ buffer staging dirty,
      m' = { m with buffer := buffer, staging := staging, dirty := dirty } ∧
        (r = .ok () → staging = m.packed) ∧
        ((m.shader.bufferSize ≠ 0 → m.buffer ≠ none) → r = .ok ()) := by
  have packs (buffer : Option Handle) :
      Material.packed { m with buffer := buffer } = m.packed :=
    SameContents.packed (m := m) ⟨rfl, rfl, rfl⟩
  refine update_rule (createBuffer_ends m h) ?_ ?_ ?_
  · intro e m₁ h₁ made
    cases made with
    | refused missing bytes kept =>
      exact ⟨m.buffer, m.staging, m.dirty, rfl, nofun, fun full => absurd missing (full bytes)⟩
  · intro m₁ h₁ made _
    obtain ⟨buffer, rfl⟩ := made.of_ok
    exact ⟨buffer, _, false, rfl, fun _ => packs buffer, fun _ => rfl⟩
  · intro m₁ h₁ _ made _
    obtain ⟨buffer, rfl⟩ := made.of_ok
    exact .of_forall fun _ _ => ⟨buffer, _, false, rfl, fun _ => packs buffer, fun _ => rfl⟩

/-- Loading textures leaves a table equipped, with its default slots as they were; a material
that was not resolved is afterwards, unless it is refused its buffer. -/
theorem loadTextures_settles (equipped : table.Equipped capacity base kept h) :
    Attempt.Ends loadTextures (m, table) h fun r s' h' =>
      s'.2.Equipped capacity base kept h' ∧ s'.2.defaults = table.defaults ∧
        s'.1.shader = m.shader ∧ s'.1.name = m.name ∧
        (m.Fresh → r = .ok () → s'.1.Settled s'.2) := by
  refine ends_loadTextures.2 (((resolve_finds m.unresolved m table h equipped).and
    (resolve_same m.unresolved m table h)).mono ?_)
  rintro _ ⟨m₁, table₁⟩ h₁ ⟨⟨equipped₁, grows, indexed⟩, indices, rfl⟩
  refine ((update_packs _ h₁).and (update_keeps _ h₁)).mono ?_
  rintro r _ h₂ ⟨⟨buffer, staging, dirty, rfl, packs, _⟩, builds⟩
  refine ⟨equipped₁.keeps builds.keepsTextures, grows.defaults, rfl, rfl, fun fresh ok => ⟨?_, ?_⟩⟩
  · exact indexed (fun p mem => mem_unresolved fresh.sorted mem) (fresh.indexed table)
  · exact packs ok

/-- Without paths there is nothing to load. -/
theorem loadTextures_nothing (nothing : m.unresolved = [])
    (full : m.shader.bufferSize ≠ 0 → m.buffer ≠ none) :
    Attempt.Ends loadTextures (m, table) h fun r s' _ => r = .ok () ∧ s'.2 = table ∧
      s'.1.name = m.name ∧ s'.1.shader = m.shader ∧ s'.1.textureIndices = m.textureIndices := by
  have resolved : Work.Ends (resolve []) (m, table) h fun _ s' h' => s' = (m, table) ∧ h' = h :=
    ⟨rfl, rfl⟩
  rw [ends_loadTextures, nothing]
  refine resolved.mono ?_
  rintro _ _ _ ⟨rfl, rfl⟩
  refine (update_packs { m with pending := false } _).mono ?_
  rintro r _ h₁ ⟨buffer, staging, dirty, rfl, _, succeeds⟩
  exact ⟨succeeds full, rfl, rfl, rfl, rfl⟩

/-- Saving a material changes the disk, and no texture. -/
theorem save_keepsTextures (m : Material) (path : String) :
    HostM.Keeps Host.KeepsTextures (m.save path) := by
  refine .bind .get fun h => .bind (.modify fun h => ⟨List.prefix_rfl, List.prefix_rfl⟩) fun _ => ?_
  split
  · exact .bind ((report_keeps _).mono fun _ _ spares => spares.toBuilds.keepsTextures) fun _ =>
      .pure
  · exact .pure

theorem parameterBytes_of_isTexture {q : Parameter} (texture : q.isTexture = true) :
    m.parameterBytes q = Bytes.ofWord (UInt32.ofNat (m.textureIndex q.name)) := by
  unfold Parameter.isTexture Parameter.type at texture
  unfold parameterBytes
  cases is : q.content with
  | value default => rw [is] at texture; cases texture
  | texture dimension defaultName => rfl

/-- The index of a texture is found again at the place of its parameter, since all textures are
packed behind the values. -/
theorem slice_packed_texture {properties : List Property} (fits : Layout.Fits properties)
    (layout : m.shader.layout = Layout.ofProperties properties) {q : Parameter}
    (mem : q ∈ m.shader.layout.parameters) (texture : q.isTexture = true) :
    Bytes.slice m.packed q.offset.toNat q.size.toNat =
      Bytes.ofWord (UInt32.ofNat (m.textureIndex q.name)) := by
  have regular := Layout.regular_of_fits fits
  have room := Layout.last_le_size fits (layout ▸ mem)
  obtain ⟨values, textures, split, noTexture, allTextures⟩ :
      ∃ values textures, (Layout.ofProperties properties).parameters = values ++ textures ∧
        (∀ q ∈ values, q.isTexture = false) ∧ ∀ q ∈ textures, q.isTexture = true :=
    ⟨_, _, rfl, fun _ => Layout.isTexture_of_mem_placeValues,
      fun _ => Layout.isTexture_of_mem_placeTextures⟩
  rw [layout, split] at mem
  have here : q ∈ textures := (List.mem_append.1 mem).resolve_left fun mem => by
    rw [noTexture q mem] at texture
    cases texture
  have length {r : Parameter} (texture : r.isTexture = true) :
      (m.parameterBytes r).length = r.size.toNat := by
    rw [parameterBytes_of_isTexture texture, Parameter.size_of_isTexture texture]
    rfl
  have increasing : (textures.map fun r => (r.offset.toNat, m.parameterBytes r)).Pairwise
      fun a b => a.1 + a.2.length ≤ b.1 := by
    have ranges := regular.increasing
    rw [split] at ranges
    refine List.pairwise_map.2 ((List.pairwise_append.1 ranges).2.1.imp_of_mem ?_)
    intro r _ mem _ le
    rw [length (allTextures r mem)]
    exact le
  rw [packed_eq_layAll, pieces, layout, split, List.map_append, Bytes.layAll_append,
    ← parameterBytes_of_isTexture texture, ← length texture]
  have piece := List.mem_map_of_mem (f := fun r => (r.offset.toNat, m.parameterBytes r)) here
  refine Bytes.slice_layAll increasing piece ?_
  rw [Bytes.length_layAll, List.length_replicate, length texture, Shader.bufferSize, layout]
  exact room

end SurfaceShading.Material
