/-
  What the texture parameters of a material show. A material that is loaded with commands has for
  each of them an index of the table, which is that of the path, or that of the default slot. The
  index of a path always shows a view of the shape in which the path was resolved. The default
  slots show white textures as long as there was no shutdown; after one no slot is kept for them,
  they are not made again, and a parameter without a path shows whatever is in its slot. The shape
  is that of the first parameter of a name, so where names repeat, views have another shape than
  a parameter declares (`Session.textures_displayed_iff`).
-/
import SurfaceShading.Proofs.Library.Resolution
import SurfaceShading.Proofs.Orphans

namespace SurfaceShading

variable {capacity base : Nat} {kept : List (TextureDimension × Nat)}

/-! ## Views -/

namespace Material

/-- The index of a texture parameter is one of the table, and the heap has a view of some shape
there, which is of the white texture unless the index is that of the path of the parameter. -/
def Displays (config : Config) (m : Material) (l : Library) (h : Host) (name : String)
    (dimension : TextureDimension) : Prop :=
  m.textureIndex name < config.capacity.toNat ∧ ∃ texture,
    l.textures.heap.views.get? (config.baseRegister.toNat + m.textureIndex name) =
      some ⟨texture, dimension⟩ ∧
    (m.Resolved l.textures name ∨ h.HasTexture texture (.white dimension))

variable {config : Config} {m : Material} {l : Library} {h : Host} {name : String}

theorem Displays.unique {dimension dimension' : TextureDimension}
    (displays : m.Displays config l h name dimension)
    (displays' : m.Displays config l h name dimension') : dimension = dimension' := by
  obtain ⟨_, _, is, _⟩ := displays
  obtain ⟨_, _, is', _⟩ := displays'
  rw [is] at is'
  cases is'
  rfl

/-- The index of a path shows a view of the shape in which the path was resolved. -/
theorem Resolved.displays (resolved : m.Resolved l.textures name)
    (ready : Library.Ready config.capacity.toNat config.baseRegister.toNat kept l h) :
    m.Displays config l h name (m.shape name) := by
  have ⟨_, _, found⟩ := resolved
  obtain ⟨texture, inside, view⟩ := found.shows ready.table.sound
  rw [ready.table.size] at inside
  rw [ready.table.start] at view
  exact ⟨inside, texture, view, .inl resolved⟩

/-- Without a path of its own, a parameter has the index of the white texture of the shape. -/
theorem displays_of_reserved (outfitted : Library.Outfitted m l)
    (ready : Library.Ready config.capacity.toNat config.baseRegister.toNat
      (TextureTable.reserved config.capacity.toNat config.baseRegister.toNat) l h)
    (room : 2 ≤ config.capacity.toNat) (name : String) :
    m.Displays config l h name (m.shape name) := by
  rcases outfitted.settled.indexed.resolved_or name with resolved | default
  · exact resolved.displays ready
  · obtain ⟨texture, ⟨inside, view⟩, white⟩ :=
      ready.table.default_shows room outfitted.stocked (m.shape name)
    rw [ready.table.size, ← default] at inside
    rw [ready.table.start, ← default] at view
    exact ⟨inside, texture, view, .inr white⟩

end Material

/-! ## Every operation -/

namespace Library

variable {l : Library} {h : Host}

theorem changeMaterial_ready (name : String) (change : Material → Material)
    (ready : Ready capacity base kept l h) :
    Ready capacity base kept (changeMaterial name change l) h := by
  unfold changeMaterial
  split
  · exact ready.onward rfl rfl (Std.Refl.refl h)
  · exact ready

theorem bindNamed_ready (name : String) (ready : Ready capacity base kept l h) :
    Attempt.Ends (bindNamed name) l h fun _ l' h' => Ready capacity base kept l' h' := by
  refine bindNamed_rule (fun m _ => ?_) ready
  refine ends_bindMaterial.2 ((Material.bind_keeps _ m h).mono fun _ _ _ builds => ?_)
  exact ready.onward rfl rfl builds.keepsTextures

theorem saveMaterial_ready (name path : String) (ready : Ready capacity base kept l h) :
    Attempt.Ends (saveMaterial name path) l h fun _ l' h' => Ready capacity base kept l' h' :=
  saveMaterial_rule (fun m _ => ready.onward rfl rfl (m.save_keepsTextures path h)) fun _ => ready

end Library

namespace Operation

open Library

/-- Every operation but a shutdown leaves the table equipped. -/
theorem ready (op : Operation) (going : op ≠ .shutdown) (l : Library) (h : Host)
    (sound : l.Sound h.device) (idle : l.registry.state = .idle)
    (ready : Ready capacity base kept l h) :
    Attempt.Ends op.attempt l h fun _ l' h' => Ready capacity base kept l' h' := by
  cases op with
  | world disk loader rejected policy =>
    exact ready.onward rfl rfl ⟨List.prefix_rfl, List.prefix_rfl⟩
  | registerSource name text => exact ready.onward rfl rfl (Std.Refl.refl h)
  | registerShaders names =>
    exact .done ((registerShaders_ends names l h idle).mono fun _ _ _ ⟨gathered, _⟩ =>
      ready.moves gathered.moves)
  | registerAll =>
    exact .done ((registerAll_ends l h idle).mono fun _ _ _ ⟨gathered, _⟩ =>
      ready.moves gathered.moves)
  | compilePending =>
    exact (compilePending_ends l h sound idle).mono fun _ _ _ compiled =>
      ready.moves compiled.moves
  | loadAll =>
    exact (loadAll_ends l h sound idle).mono fun _ _ _ loaded => ready.moves loaded.moves
  | loadShader name =>
    exact .done ((loadShader_ready name sound idle ready).mono fun _ _ _ => And.left)
  | regenerate =>
    exact .done ((regenerateExcept_ends [] l h sound idle fun _ mem =>
      absurd mem List.not_mem_nil).mono fun _ _ _ regenerated => ready.moves regenerated.moves)
  | createMaterial name shader => exact .done (createMaterial_ready name shader sound idle ready)
  | createDefaults => exact .done (createDefaults_ready sound idle ready)
  | loadMaterial path commands =>
    exact .done ((loadMaterial_outfits path commands sound idle ready).mono fun _ _ _ => And.left)
  | resolvePending => exact .done (resolvePending_ready ready)
  | changeMaterial name change => exact changeMaterial_ready name change ready
  | bindMaterial name => exact bindNamed_ready name ready
  | saveMaterial name path => exact saveMaterial_ready name path ready
  | releaseTexture path =>
    exact .done ((Attempt.ends_liftWork _).2 (releaseTexture_ready path ready))
  | shutdown => exact absurd rfl going

end Operation

namespace Session

theorem start_ready (config : Config) (texts : OrderedMap String String) (loader : Loader)
    (disk : Disk) (room : config.baseRegister.toNat + config.capacity.toNat ≤ indexSpace) :
    Library.Ready config.capacity.toNat config.baseRegister.toNat
      (TextureTable.reserved config.capacity.toNat config.baseRegister.toNat)
      (start config texts loader disk).library (start config texts loader disk).host where
  table := TextureTable.equipped_new room _
  laidOut _ _ is := nomatch is

/-- The default slots are kept until a shutdown, and not after it. -/
theorem run_ready {s : Session} (sound : s.Sound)
    (ready : Library.Ready capacity base kept s.library s.host) (ops : List Operation) :
    ∃ kept', Library.Ready capacity base kept' (s.run ops).library (s.run ops).host ∧
      (.shutdown ∉ ops → kept' = kept) ∧ (.shutdown ∈ ops → kept' = []) := by
  induction ops generalizing s kept with
  | nil => exact ⟨kept, ready, fun _ => rfl, fun mem => absurd mem List.not_mem_nil⟩
  | cons op rest ih =>
    have sound' := step_sound sound op
    by_cases shut : op = .shutdown
    · subst shut
      have ready' : Library.Ready capacity base [] (s.step .shutdown).library
          (s.step .shutdown).host := Library.shutdown_ready ready
      obtain ⟨kept', ready', same, none⟩ := ih sound' ready'
      refine ⟨kept', ready', fun notMem => absurd List.mem_cons_self notMem, fun _ => ?_⟩
      by_cases again : .shutdown ∈ rest
      · exact none again
      · exact same again
    · have ready' := (s.ends_perform op).1 (op.ready shut s.library s.host sound.library sound.idle
        ready)
      obtain ⟨kept', ready', same, none⟩ := ih sound' ready'
      have iff : .shutdown ∈ op :: rest ↔ .shutdown ∈ rest := by
        rw [List.mem_cons]
        exact or_iff_right (Ne.symm shut)
      rw [iff]
      exact ⟨kept', ready', same, none⟩

/-! ## A material without paths -/

/-- The shader of a material is loaded, and the world refuses nothing after that. -/
def paintLoaded : List Operation :=
  [.loadShader "Paint", .world coatDisk (.stub [] []) none Device.acceptAll]

/-- The material of the file is loaded, and no texture of it is resolved. -/
theorem PaintsAnew.coats {s : Session} (anew : PaintsAnew "Paint" s)
    (materials : s.library.materials = .empty) {P : TextureTable → Prop}
    (made : ∀ h : Host, h.device.policy = Device.acceptAll →
      Attempt.Ends TextureTable.ensureDefaults s.library.textures h fun r table _ =>
        r = .ok () ∧ P table) :
    let s₁ := s.run paintLoaded
    let s₂ := s₁.step (.loadMaterial "coat.json" true)
    MaterialHeader.load s₁.host.disk "coat.json" = .ok ⟨"Coat", "Paint"⟩ ∧
      s₁.library.materials.get? "Coat" = none ∧
      (s₁.perform (.loadMaterial "coat.json" true)).1 = .ok () ∧
      ∃ m, s₂.library.materials.get? "Coat" = some m ∧ m.shader = paintShader ∧
        m.textureIndices = .empty ∧ P s₂.library.textures := by
  intro s₁ s₂
  obtain ⟨moves, ⟨o, built, same⟩, _⟩ := anew.loads
  obtain ⟨sameMaterials, sameTextures⟩ := moves.belongings
  have new : s₁.library.materials.get? "Coat" = none := by
    show (s.step (.loadShader "Paint")).library.materials.get? "Coat" = none
    rw [sameMaterials, materials]
    rfl
  rw [← sameTextures] at made
  have loaded := Library.loadMaterial_nothing (l := s₁.library) (h := s₁.host) coat_headed new
    coat_read rfl
    rfl built (fun _ _ => rfl) made
  rw [same] at loaded
  have whole : Attempt.Ends (Operation.loadMaterial "coat.json" true).attempt s₁.library s₁.host
      fun r l' _ => r = .ok () ∧ ∃ m, l'.materials.get? "Coat" = some m ∧ m.shader = paintShader ∧
        m.textureIndices = .empty ∧ P l'.textures :=
    loaded.bind (fun _ _ _ ended => ⟨rfl, ended.2⟩) fun _ _ _ ⟨⟨_, is⟩, _⟩ => nomatch is
  exact ⟨coat_headed, new, (s₁.ends_perform (.loadMaterial "coat.json" true)).1 whole⟩

/-! ## A loaded material -/

/-- **What a loaded material shows.** After any operations, let a material that is not there be
loaded from a file with commands. For each of its texture parameters the place in the constant
buffer has the index, which is one of the table. If it is the index of the path, there is a view
of the shape in which the path was resolved; else it is that of the default slot of this shape.
If there was no shutdown before, all parameters show what they should iff each declares the shape
in which its path was resolved, which is that of the first parameter of the name. After a shutdown
no slot is kept for default textures. -/
theorem textures_displayed_iff (config : Config) (texts : OrderedMap String String)
    (loader : Loader) (disk : Disk) (ops : List Operation) (path : String)
    (header : MaterialHeader) (two : 2 ≤ config.capacity.toNat)
    (room : config.baseRegister.toNat + config.capacity.toNat ≤ indexSpace) :
    let s := (start config texts loader disk).run ops
    let s' := s.step (.loadMaterial path true)
    MaterialHeader.load s.host.disk path = .ok header →
    s.library.materials.get? header.name = none →
    (s.perform (.loadMaterial path true)).1 = .ok () →
    ∃ m, s'.library.materials.get? header.name = some m ∧
      (Layout.Fits m.shader.definition.properties →
        ∀ q ∈ m.shader.layout.parameters, q.isTexture = true →
          Bytes.slice m.staging q.offset.toNat q.size.toNat =
            Bytes.ofWord (UInt32.ofNat (m.textureIndex q.name))) ∧
      (∀ name, m.textureIndex name < config.capacity.toNat ∧
        (m.Resolved s'.library.textures name ∧
            m.Displays config s'.library s'.host name (m.shape name) ∨
          m.textureIndex name = TextureTable.defaultIndex (m.shape name))) ∧
      (.shutdown ∉ ops →
        ((∀ q ∈ m.shader.layout.parameters, ∀ dimension, q.type = .texture dimension →
            m.Displays config s'.library s'.host q.name dimension) ↔
          ∀ q ∈ m.shader.layout.parameters, ∀ dimension, q.type = .texture dimension →
            m.shape q.name = dimension)) ∧
      (.shutdown ∈ ops → s'.library.textures.defaults = []) := by
  intro s s' headed new ok
  have sound : s.Sound := run_sound (start_sound config texts loader disk) ops
  obtain ⟨kept, ready, same, cleared⟩ :=
    run_ready (start_sound config texts loader disk) (start_ready config texts loader disk room) ops
  have loaded : Attempt.Ends (Library.loadMaterial path true) s.library s.host fun r l' h' =>
      (∃ a, r = .ok a) →
        Library.Ready config.capacity.toNat config.baseRegister.toNat kept l' h' ∧
        ∃ m, l'.materials.get? header.name = some m ∧ Library.Outfitted m l' :=
    (Library.loadMaterial_outfits path true sound.library sound.idle ready).mono
      fun _ _ _ ⟨ready', outfits⟩ done => ⟨ready', outfits header headed new rfl done⟩
  have ends := (s.ends_perform (.loadMaterial path true)).1 (Attempt.Ends.done_of_ok loaded)
  obtain ⟨ready', m, there, outfitted⟩ := ends ok
  refine ⟨m, there, fun fits q mem texture => ?_, fun name => ?_, fun going => ?_, fun shut => ?_⟩
  · rw [outfitted.settled.packed]
    exact Material.slice_packed_texture fits outfitted.laidOut mem texture
  · rcases outfitted.settled.indexed.resolved_or name with resolved | default
    · have displays := resolved.displays ready'
      exact ⟨displays.1, .inl ⟨resolved, displays⟩⟩
    · rw [default]
      exact ⟨Nat.lt_of_lt_of_le (TextureTable.defaultIndex_lt_two _) two, .inr rfl⟩
  · obtain rfl := same going
    have displays (name : String) : m.Displays config s'.library s'.host name (m.shape name) :=
      Material.displays_of_reserved outfitted ready' two name
    constructor
    · exact fun all q mem dimension is => (displays q.name).unique (all q mem dimension is)
    · intro declared q mem dimension is
      rw [← declared q mem dimension is]
      exact displays q.name
  · obtain rfl := cleared shut
    exact List.map_eq_nil_iff.1 ready'.table.defaults

/-- A material without paths shows the white texture. -/
theorem paintLoaded_displayed :
    2 ≤ Config.standard.capacity.toNat ∧
    Config.standard.baseRegister.toNat + Config.standard.capacity.toNat ≤ indexSpace ∧
    let s := paintShop.run paintLoaded
    let s' := s.step (.loadMaterial "coat.json" true)
    MaterialHeader.load s.host.disk "coat.json" = .ok ⟨"Coat", "Paint"⟩ ∧
    s.library.materials.get? "Coat" = none ∧
    (s.perform (.loadMaterial "coat.json" true)).1 = .ok () ∧
    ∃ m, s'.library.materials.get? "Coat" = some m ∧
      ∀ q ∈ m.shader.layout.parameters, ∀ dimension, q.type = .texture dimension →
        m.Displays .standard s'.library s'.host q.name dimension := by
  have two : 2 ≤ Config.standard.capacity.toNat := by decide
  have room : Config.standard.baseRegister.toNat + Config.standard.capacity.toNat ≤ indexSpace := by
    decide
  have coats := paintsAnew_paintShop.coats (P := fun _ => True) rfl fun h policy =>
    (TextureTable.ensureDefaults_accepted (by rw [policy]; exact fun _ _ => rfl)).mono
      fun _ _ _ ok => ⟨ok, trivial⟩
  have shown := textures_displayed_iff .standard (OrderedMap.empty.insert "Paint" paintText)
    (.stub [] []) coatDisk paintLoaded "coat.json" ⟨"Coat", "Paint"⟩ two room
  rw [← paintShop] at shown
  obtain ⟨headed, new, ok, m', there', shader, _⟩ := coats
  obtain ⟨m, there, _, _, going, _⟩ := shown headed new ok
  obtain rfl : m' = m := Option.some.inj (there'.symm.trans there)
  refine ⟨two, room, headed, new, ok, m', there, (going ?_).2 ?_⟩
  · simp [paintLoaded]
  · have layout : m'.shader.layout = Layout.ofProperties paintDefinition.properties := by
      rw [shader]
      rfl
    have distinct : (paintDefinition.properties.map Property.name).Nodup := by decide
    exact fun q mem dimension is => Material.shape_of_distinct layout distinct mem is

/-! ## After a shutdown -/

/-- A shutdown forgets all materials and keeps no default slot; the views stay. -/
theorem shut_table (s : Session) (sound : s.library.textures.Sound) :
    (s.step .shutdown).library.materials = .empty ∧
      (s.step .shutdown).library.textures.heap = s.library.textures.heap ∧
      (s.step .shutdown).library.textures.defaults = [] := by
  have ended : Work.Ends Library.shutdown s.library s.host fun _ l' _ =>
      l'.materials = .empty ∧ l'.textures.heap = s.library.textures.heap ∧
        l'.textures.defaults = [] := by
    refine ((Library.shutdown_ends s.library s.host).and (Library.shutdown_clears sound)).mono ?_
    rintro _ l' h' ⟨⟨_, same⟩, _, heap, defaults, _⟩
    exact ⟨by rw [same], heap, defaults⟩
  exact ended

/-- A shutdown of a session that is new leaves it as good as new, all but the table. -/
theorem PaintsAnew.shut {key : String} {s : Session} (anew : PaintsAnew key s) :
    PaintsAnew key (s.step .shutdown) := by
  obtain ⟨world, same⟩ :
      s.host.Advances (s.step .shutdown).host ∧ (s.step .shutdown).library = { s.library with
        materials := .empty, shaders := .empty, pending := []
        textures := (s.step .shutdown).library.textures } :=
    Library.shutdown_ends s.library s.host
  refine ⟨step_sound anew.sound .shutdown, ?_, ?_, ?_, ?_, ?_, ?_, ?_, ?_⟩
  · rw [same]; exact anew.config
  · rw [same]; exact anew.other
  · rw [same]; exact anew.sources
  · rw [same]
  · rw [same]; exact anew.registry
  · rw [same]
  · rw [world.policy, anew.policy]
  · rw [world.rejected, anew.rejected]

/-- A table without default slots makes no default texture, so there is no view at the index of
a parameter without a path. -/
theorem PaintsAnew.displays_nothing {s : Session} (anew : PaintsAnew "Paint" s)
    (materials : s.library.materials = .empty) (noDefaults : s.library.textures.defaults = [])
    (noViews : s.library.textures.heap.views = .empty) :
    let s₁ := s.run paintLoaded
    let s₂ := s₁.step (.loadMaterial "coat.json" true)
    MaterialHeader.load s₁.host.disk "coat.json" = .ok ⟨"Coat", "Paint"⟩ ∧
      s₁.library.materials.get? "Coat" = none ∧
      (s₁.perform (.loadMaterial "coat.json" true)).1 = .ok () ∧
      ∃ m, s₂.library.materials.get? "Coat" = some m ∧
        ∃ q ∈ m.shader.layout.parameters, q.type = .texture .d2 ∧ m.textureIndex q.name = 0 ∧
          ∀ config, ¬ m.Displays config s₂.library s₂.host q.name .d2 := by
  have coats := anew.coats (P := fun table => table.heap.views = .empty) materials fun h _ => by
    refine (TextureTable.ensureDefaults_idle (by rw [noDefaults]; exact fun _ => nofun)).mono ?_
    rintro _ _ _ ⟨ok, rfl, _⟩
    exact ⟨ok, noViews⟩
  obtain ⟨headed, new, ok, m, there, shader, indices, noViews'⟩ := coats
  have index : m.textureIndex "Cover" = 0 := by
    rw [Material.textureIndex_eq, Material.shape, indices, shader]
    decide +kernel
  refine ⟨headed, new, ok, m, there, ⟨"Cover", 0, 0, .texture .d2 none⟩, ?_, rfl, index, ?_⟩
  · rw [shader]
    decide +kernel
  · rintro config ⟨_, _, is, _⟩
    rw [noViews'] at is
    cases is

/-- A material is loaded after a shutdown: the index of its texture is that of the default slot,
and there is no view. -/
theorem shutdown_leaves_no_view :
    let s := paintShop.run (.shutdown :: paintLoaded)
    let s' := s.step (.loadMaterial "coat.json" true)
    MaterialHeader.load s.host.disk "coat.json" = .ok ⟨"Coat", "Paint"⟩ ∧
      s.library.materials.get? "Coat" = none ∧
      (s.perform (.loadMaterial "coat.json" true)).1 = .ok () ∧
      ∃ m, s'.library.materials.get? "Coat" = some m ∧
        ∃ q ∈ m.shader.layout.parameters, q.type = .texture .d2 ∧ m.textureIndex q.name = 0 ∧
          ∀ config, ¬ m.Displays config s'.library s'.host q.name .d2 := by
  have room : Config.standard.baseRegister.toNat + Config.standard.capacity.toNat ≤ indexSpace := by
    decide
  have ready := start_ready .standard (OrderedMap.empty.insert "Paint" paintText) (.stub [] [])
    coatDisk room
  rw [← paintShop] at ready
  have noViews : paintShop.library.textures.heap.views = .empty := by decide +kernel
  obtain ⟨materials, cleared⟩ := paintShop.shut_table ready.table.sound
  rw [run_cons]
  exact paintsAnew_paintShop.shut.displays_nothing materials cleared.2
    (cleared.1.symm ▸ noViews)

end Session

end SurfaceShading
