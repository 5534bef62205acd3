/-
  The table of textures of a library. Whatever is asked of a library but to shut down, its table
  stays equipped, with the same default slots, and its shaders stay laid out as declared
  (`Library.Ready`). A material that is loaded from a file with commands is resolved in the table,
  and the default textures are there (`Library.Outfitted`).
-/
import SurfaceShading.Proofs.Library.Custody
import SurfaceShading.Proofs.Material.Resolution

namespace SurfaceShading

/-- The parameters of a shader are placed as the layout of its properties says. -/
def Shader.LaidOut (s : Shader) : Prop :=
  s.layout = Layout.ofProperties s.definition.properties

namespace Library

/-- The table of textures is equipped, and every shader is laid out. -/
structure Ready (capacity base : Nat) (kept : List (TextureDimension × Nat)) (l : Library)
    (h : Host) : Prop where
  table : l.textures.Equipped capacity base kept h
  laidOut : ∀ name e, l.shaders.get? name = some e → e.object.shader.LaidOut

/-- The textures of a material of the library are resolved and packed, and the default textures
are made. -/
structure Outfitted (m : Material) (l : Library) : Prop where
  settled : m.Settled l.textures
  laidOut : m.shader.LaidOut
  stocked : ∀ d ∈ l.textures.defaults, d.texture.isSome = true

variable {l l' : Library} {h h' : Host} {capacity base : Nat}
  {kept : List (TextureDimension × Nat)}

/-! ## Shaders -/

theorem laidOut_of_made {definition : Definition} {shared : Bool} {limit : UInt32}
    {shader : Shader} (made : Shader.ofDefinition definition shared limit = .ok shader) :
    shader.LaidOut := by
  rw [Shader.eq_of_ofDefinition made]
  rfl

namespace Ready

/-- What leaves table and shaders alone. -/
theorem onward (ready : Ready capacity base kept l h) (textures : l'.textures = l.textures)
    (shaders : l'.shaders = l.shaders) (keeps : h.KeepsTextures h') :
    Ready capacity base kept l' h' where
  table := textures ▸ ready.table.keeps keeps
  laidOut := shaders ▸ ready.laidOut

theorem moves (ready : Ready capacity base kept l h) (moves : Moves l h l' h') :
    Ready capacity base kept l' h' where
  table := moves.belongings.2 ▸ ready.table.keeps moves.builds.keepsTextures
  laidOut := by
    have replaced {l : Library} {name : String} {e : ShaderEntry}
        (all : ∀ name e, l.shaders.get? name = some e → e.object.shader.LaidOut)
        (new : e.object.shader.LaidOut) (other : String) (e' : ShaderEntry)
        (is : (l.shaders.insert name e).get? other = some e') : e'.object.shader.LaidOut := by
      rw [OrderedMap.get?_insert] at is
      split at is
      · cases is
        exact new
      · exact all other e' is
    refine moves.preserve
      (I := fun l _ => ∀ name e, l.shaders.get? name = some e → e.object.shader.LaidOut) ?_
      ready.laidOut
    intro _ _ _ _ move all
    cases move with
    | world _ => exact all
    | turn _ => exact all
    | add _ _ made => exact replaced all (laidOut_of_made made)
    | queue _ _ => exact all
    | rework there reworked => exact replaced all (reworked.shader ▸ all _ _ there)
    | built there _ _ _ =>
      have laidOut := all _ _ there
      exact replaced all laidOut
    | finish _ => exact all

end Ready

theorem loadShader_ready (name : String) (sound : l.Sound h.device)
    (idle : l.registry.state = .idle) (ready : Ready capacity base kept l h) :
    Attempt.Ends (loadShader name) l h fun r l' h' =>
      Ready capacity base kept l' h' ∧ ∀ o, r = .ok o → o.shader.LaidOut := by
  refine ((loadShader_ends name l h sound idle).and (loadShader_gives name l h)).mono ?_
  rintro r l' h' ⟨ended, gives⟩
  have ready' : Ready capacity base kept l' h' := by
    rcases ended with ⟨_, _, _, rfl, builds⟩ | ⟨_, loaded⟩
    · exact ready.onward rfl rfl builds.keepsTextures
    · exact ready.moves loaded.moves
  refine ⟨ready', fun o ok => ?_⟩
  obtain ⟨e, there, rfl⟩ := gives o ok
  exact ready'.laidOut name e there

/-! ## Materials -/

theorem createMaterial_ready (name shader : String) (sound : l.Sound h.device)
    (idle : l.registry.state = .idle) (ready : Ready capacity base kept l h) :
    Attempt.Ends (createMaterial name shader) l h fun _ l' h' =>
      Ready capacity base kept l' h' := by
  refine createMaterial_rule (fun _ _ => ready)
    (fun _ => loadShader_ready shader sound idle ready) (fun _ _ _ => And.left) ?_
  rintro o l₁ h₁ _ ⟨ready₁, _⟩
  refine (Material.update_keeps _ h₁).mono fun r m h₂ builds => ?_
  cases r with
  | error _ => exact ready₁.onward rfl rfl builds.keepsTextures
  | ok _ => exact ready₁.onward rfl rfl builds.keepsTextures

theorem createDefaults_ready (sound : l.Sound h.device) (idle : l.registry.state = .idle)
    (ready : Ready capacity base kept l h) :
    Attempt.Ends createDefaults l h fun _ l' h' => Ready capacity base kept l' h' := by
  let P (l' : Library) (h' : Host) : Prop := Aside l h l' h' ∧ Ready capacity base kept l' h'
  have start : P l h := ⟨.refl l h, ready⟩
  refine (createDefaults_preserves sound.shaders_sorted start ?_).mono fun _ _ _ => And.right
  rintro l₁ h₁ shader o built ⟨aside, ready₁⟩
  refine ((createMaterial_ready _ shader (aside.sound sound) (aside.idle idle)
    ready₁).and (createMaterial_aside _ built)).mono ?_
  exact fun _ _ _ ⟨ready₂, beside⟩ => ⟨aside.trans beside, ready₂⟩

/-- Making the default textures makes all of them, unless the device refuses one. -/
theorem ensureDefaultTextures_ready (ready : Ready capacity base kept l h) :
    Attempt.Ends ensureDefaultTextures l h fun r l' h' => Ready capacity base kept l' h' ∧
      (r = .ok () → ∀ d ∈ l'.textures.defaults, d.texture.isSome = true) :=
  (Attempt.ends_focus _ _ _).2 ((TextureTable.ensureDefaults_ends ready.table.sound h).mono
    fun _ _ _ ⟨stocked, made⟩ => ⟨⟨ready.table.stocked stocked, ready.laidOut⟩, made⟩)

theorem furnish_ready (file : MaterialFile) (sound : l.Sound h.device)
    (idle : l.registry.state = .idle) (ready : Ready capacity base kept l h) :
    Attempt.Ends (furnish file) l h fun r l' h' => Ready capacity base kept l' h' ∧
      ∀ m, r = .ok m → m.Fresh ∧ m.shader.LaidOut ∧ m.name = file.name := by
  refine furnish_rule (loadShader_ready file.shader sound idle ready)
    (fun _ _ _ ended => ⟨ended.1, fun _ is => by cases is⟩) ?_
  rintro o l₁ h₁ ⟨ready₁, laidOut⟩
  have keeps : Attempt.Keeps Host.Builds (do
      Material.applyFile file
      Material.createBuffer : Attempt Material Unit) :=
    .bind (.liftWork (Material.applyFile_keeps file).spares.builds) fun _ =>
      Material.createBuffer_keeps
  refine ((keeps _ h₁).and (Material.applyFile_createBuffer_fresh file
    (Material.fresh_new file.name o.id o.shader))).mono ?_
  rintro r m h₂ ⟨builds, fresh, shader, name⟩
  refine ⟨ready₁.onward rfl rfl builds.keepsTextures, fun m' ok => ?_⟩
  cases r with
  | error e => cases ok
  | ok _ =>
    cases ok
    exact ⟨fresh, shader ▸ laidOut o rfl, name⟩

theorem finishFile_outfits (file : MaterialFile) (commands : Bool) {m : Material}
    (fresh : m.Fresh) (laidOut : m.shader.LaidOut) (ready : Ready capacity base kept l h) :
    Attempt.Ends (finishFile file commands m) l h fun r l' h' =>
      Ready capacity base kept l' h' ∧ (commands = true → (∃ m', r = .ok m') →
        ∃ m', l'.materials.get? m.name = some m' ∧ Outfitted m' l') := by
  have failed {e : Error} {P : Prop} : commands = true →
      (∃ m', (.error e : Except Error Material) = .ok m') → P := by
    rintro _ ⟨_, is⟩
    cases is
  refine finishFile_rule (Q := fun r m' l₁ h₁ => Ready capacity base kept l₁ h₁ ∧
      (r = .ok () → commands = true → m'.name = m.name ∧ Outfitted m' l₁))
    (fun _ => ensureDefaultTextures_ready ready) (fun _ _ _ _ ended => ⟨ended.1, failed⟩)
    ?_ ?_ (fun _ _ _ _ ended => ⟨ended.1, failed⟩) ?_
  · rintro l₁ h₁ _ ⟨ready₁, made⟩
    refine (Material.loadTextures_settles ready₁.table).mono ?_
    rintro r s h₂ ⟨equipped, defaults, shader, name, settled⟩
    refine ⟨⟨equipped, ready₁.laidOut⟩, fun ok _ => ⟨name, settled fresh ok, ?_, ?_⟩⟩
    · exact shader ▸ laidOut
    · exact defaults ▸ made rfl
  · intro uncommanded
    refine (Material.update_keeps m h).mono fun _ _ _ builds => ?_
    refine ⟨ready.onward rfl rfl builds.keepsTextures, fun _ commanded => ?_⟩
    rw [uncommanded] at commanded
    cases commanded
  · rintro m' l₁ h₁ h₂ ⟨ready₁, outfitted⟩ spares
    refine ⟨ready₁.onward rfl rfl spares.toBuilds.keepsTextures, fun commanded _ => ?_⟩
    obtain ⟨name, settled, laidOut, stocked⟩ := outfitted rfl commanded
    exact ⟨m', name ▸ OrderedMap.get?_insert_self _ _ _, settled, laidOut, stocked⟩

theorem ofFile_outfits (file : MaterialFile) (commands : Bool) (sound : l.Sound h.device)
    (idle : l.registry.state = .idle) (ready : Ready capacity base kept l h) :
    Attempt.Ends (ofFile file commands) l h fun r l' h' =>
      Ready capacity base kept l' h' ∧ (commands = true → (∃ m, r = .ok m) →
        ∃ m, l'.materials.get? file.name = some m ∧ Outfitted m l') := by
  rw [ofFile_eq]
  refine (furnish_ready file sound idle ready).bind ?_ ?_
  · rintro m l₁ h₁ ⟨ready₁, furnished⟩
    obtain ⟨fresh, laidOut, name⟩ := furnished m rfl
    rw [← name]
    exact finishFile_outfits file commands fresh laidOut ready₁
  · rintro e l₁ h₁ ⟨ready₁, _⟩
    exact ⟨ready₁, fun _ ⟨_, is⟩ => nomatch is⟩

/-- **Loading a material.** A table stays equipped; with commands, a new material is outfitted if
the load does not fail. -/
theorem loadMaterial_outfits (path : String) (commands : Bool) (sound : l.Sound h.device)
    (idle : l.registry.state = .idle) (ready : Ready capacity base kept l h) :
    Attempt.Ends (loadMaterial path commands) l h fun r l' h' =>
      Ready capacity base kept l' h' ∧ ∀ header, MaterialHeader.load h.disk path = .ok header →
        l.materials.get? header.name = none → commands = true → (∃ m, r = .ok m) →
          ∃ m, l'.materials.get? header.name = some m ∧ Outfitted m l' := by
  refine loadMaterial_rule ?_ ?_ ?_ ?_
  · intro e headed
    refine ⟨ready, fun _ is => ?_⟩
    rw [headed] at is
    cases is
  · intro header m h' headed there spares
    refine ⟨ready.onward rfl rfl spares.toBuilds.keepsTextures, fun _ is new => ?_⟩
    cases headed.symm.trans is
    cases there.symm.trans new
  · rintro header e headed new read
    refine ⟨ready, ?_⟩
    rintro _ _ _ _ ⟨_, is⟩
    cases is
  · intro header file headed new read
    refine (ofFile_outfits file commands sound idle ready).mono ?_
    rintro r l' h' ⟨ready', outfits⟩
    refine ⟨ready', fun _ is _ => ?_⟩
    cases headed.symm.trans is
    rw [← MaterialFile.load_name headed read]
    exact outfits

/-- The material of a file that sets no path is kept, if no default texture is refused. -/
theorem finishFile_nothing {file : MaterialFile} {m : Material} {P : TextureTable → Prop}
    (nothing : m.unresolved = []) (full : m.shader.bufferSize ≠ 0 → m.buffer ≠ none)
    (made : Attempt.Ends TextureTable.ensureDefaults l.textures h fun r table _ =>
      r = .ok () ∧ P table) :
    Attempt.Ends (finishFile file true m) l h fun r l' _ => (∃ m', r = .ok m') ∧
      ∃ m', l'.materials.get? m.name = some m' ∧ m'.shader = m.shader ∧
        m'.textureIndices = m.textureIndices ∧ P l'.textures := by
  have stocked : Attempt.Ends ensureDefaultTextures l h fun r l' _ => r = .ok () ∧ P l'.textures :=
    made
  refine finishFile_rule (Q := fun r m' l₁ _ => r = .ok () ∧ m'.name = m.name ∧
      m'.shader = m.shader ∧ m'.textureIndices = m.textureIndices ∧ P l₁.textures)
    (fun _ => stocked) ?_ ?_ (fun commanded => by cases commanded) ?_ ?_
  · rintro e l₁ h₁ _ ⟨failed, _⟩
    cases failed
  · rintro l₁ h₁ _ ⟨_, holds⟩
    refine (Material.loadTextures_nothing nothing full).mono ?_
    rintro r s h₂ ⟨ok, table, name, shader, indices⟩
    exact ⟨ok, name, shader, indices, table ▸ holds⟩
  · rintro e m' l₁ h₁ ⟨failed, _⟩
    cases failed
  · rintro m' l₁ h₁ h₂ ⟨_, name, shader, indices, holds⟩ _
    exact ⟨⟨m', rfl⟩, m', name ▸ OrderedMap.get?_insert_self _ _ _, shader, indices, holds⟩

/-- The material of a file that sets nothing is loaded, if its shader was built and the device
refuses neither its buffer nor a default texture. -/
theorem loadMaterial_nothing {path : String} {header : MaterialHeader} {file : MaterialFile}
    {o : ShaderObject} {P : TextureTable → Prop}
    (headed : MaterialHeader.load h.disk path = .ok header)
    (new : l.materials.get? header.name = none) (read : MaterialFile.load h.disk path = .ok file)
    (values : file.parameters = .empty) (paths : file.textures = .empty)
    (built : l.built? file.shader = some o)
    (makes : ∀ n descriptor, h.device.policy n (.buffer descriptor) = none)
    (made : ∀ h' : Host, h'.device.policy = h.device.policy →
      Attempt.Ends TextureTable.ensureDefaults l.textures h' fun r table _ =>
        r = .ok () ∧ P table) :
    Attempt.Ends (loadMaterial path true) l h fun r l' _ => (∃ m, r = .ok m) ∧
      ∃ m, l'.materials.get? header.name = some m ∧ m.shader = o.shader ∧
        m.textureIndices = .empty ∧ P l'.textures := by
  refine loadMaterial_rule ?_ ?_ ?_ ?_
  · intro e failed
    cases headed.symm.trans failed
  · intro header' m h' is there _
    cases headed.symm.trans is
    cases new.symm.trans there
  · intro header' e _ _ failed
    cases read.symm.trans failed
  · intro header' file' is _ is'
    cases headed.symm.trans is
    cases read.symm.trans is'
    rw [ofFile_eq]
    refine (furnish_bare values paths built makes).bind ?_ ?_
    · rintro m l₁ h₁ ⟨rfl, policy, buffer, ok, full⟩
      cases ok
      rw [← MaterialFile.load_name headed read]
      exact finishFile_nothing rfl full (made h₁ policy)
    · rintro e l₁ h₁ ⟨_, _, _, failed, _⟩
      cases failed

/-! ## Materials of the library -/

theorem resolveMaterial_ready (name : String) (m : Material)
    (ready : Ready capacity base kept l h) :
    Attempt.Ends (resolveMaterial name m) l h fun _ l' h' => Ready capacity base kept l' h' := by
  have loaded : Attempt.Ends Material.loadTextures (m, l.textures) h fun _ s' h' =>
      s'.2.Equipped capacity base kept h' :=
    (Material.loadTextures_settles ready.table).mono fun _ _ _ ended => ended.1
  exact ⟨loaded, ready.laidOut⟩

theorem resolvePending_ready (ready : Ready capacity base kept l h) :
    Attempt.Ends resolvePending l h fun _ l' h' => Ready capacity base kept l' h' :=
  resolvePending_rule ((ensureDefaultTextures_ready ready).mono fun _ _ _ => And.left)
    (resolveMaterial_ready _ _)

theorem releaseTexture_ready (path : String) (ready : Ready capacity base kept l h) :
    Work.Ends (releaseTexture path) l h fun _ l' h' => Ready capacity base kept l' h' := by
  refine (Work.ends_focus _ _ _).2 ((TextureTable.release_ends ready.table.sound path h).mono ?_)
  rintro _ table' h' ⟨rfl, released, _⟩
  exact ⟨ready.table.released released, ready.laidOut⟩

/-! ## Shutdown -/

/-- A shutdown clears the table. -/
theorem shutdown_clears (sound : l.textures.Sound) :
    Work.Ends shutdown l h fun _ l' _ => l'.textures.Sound ∧
      l'.textures.heap = l.textures.heap ∧ l'.textures.defaults = [] ∧
      l'.textures.slots.capacity = l.textures.slots.capacity ∧
      l'.textures.slots.base = l.textures.slots.base := by
  unfold shutdown
  rw [Work.ends_bind, Work.ends_get, Work.ends_bind]
  refine (releaseAll_ends l.materials.values l h).mono ?_
  rintro _ l₁ h₁ ⟨rfl, _⟩
  refine (Work.ends_bind _ _).2 ((Work.ends_lift _).2 (.of_forall fun _ h₂ => ?_))
  refine (Work.ends_bind _ _).2 ((Work.ends_modify _).2 ((Work.ends_focus _ _ _).2 ?_))
  refine (TextureTable.clear_ends sound h₂).mono ?_
  rintro _ table' h₃ ⟨_, sound', heap, _, defaults, size, start⟩
  exact ⟨sound', heap, defaults, size, start⟩

/-- After a shutdown no slot is kept for default textures. -/
theorem shutdown_ready (ready : Ready capacity base kept l h) :
    Work.Ends shutdown l h fun _ l' h' => Ready capacity base [] l' h' := by
  refine ((shutdown_clears ready.table.sound).and (shutdown_ends l h)).mono ?_
  rintro _ l' h' ⟨⟨sound, _, defaults, size, start⟩, _, same⟩
  refine ⟨⟨sound, size.trans ready.table.size, start.trans ready.table.start, ?_, ?_⟩, ?_⟩
  · rw [defaults]
    rfl
  · unfold TextureTable.White
    rw [defaults]
    exact fun _ mem => absurd mem List.not_mem_nil
  · rw [same]
    exact fun _ _ is => nomatch is

end Library

end SurfaceShading
