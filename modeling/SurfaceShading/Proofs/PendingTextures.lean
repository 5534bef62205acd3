/-
  Pending textures. A material that gets a path waits until its textures are resolved: at its
  load with commands, or when all pending materials are resolved. Whatever a session asks of its
  library, with setters on the materials in between and whatever the device and the loader refuse,
  the flag of a material says exactly whether some path has no slot. A resolution that is not
  refused gives the number of the materials that were pending and leaves none, each of them with
  a slot for every path and what it packs on the device; and one more does nothing at all
  (`Session.pending_exact`).
-/
import SurfaceShading.Proofs.Library.Care
import SurfaceShading.Proofs.Library.Continuity
import SurfaceShading.Proofs.ShaderReference

namespace SurfaceShading

/-! ## Default textures -/

namespace TextureTable

variable {table : TextureTable} {h : Host}

/-- Every default slot has its texture. -/
def AllMade (slots : List DefaultSlot) : Prop := ∀ slot ∈ slots, slot.texture.isSome = true

/-- Slots are taken for paths apart from the default ones. -/
theorem acquire_defaults (path : String) (dimension : TextureDimension) (table : TextureTable)
    (h : Host) :
    Work.Ends (acquire path dimension) table h fun _ table' _ =>
      table'.defaults = table.defaults := by
  refine acquire_rule (fun _ _ => rfl) (fun _ _ => rfl) fun index slots _ _ => ?_
  refine .of_forall fun r h₁ => ?_
  cases r with
  | ok texture => rfl
  | error e => exact (Work.ends_focus _ _ _).2 (.of_forall fun _ _ => rfl)

end TextureTable

namespace Material

theorem resolve_defaults (parameters : List (String × String × TextureDimension)) (m : Material)
    (table : TextureTable) (h : Host) :
    Work.Ends (resolve parameters) (m, table) h fun _ s' _ =>
      s'.2.defaults = table.defaults := by
  refine resolve_rule (P := fun _ _ table₁ _ => table₁.defaults = table.defaults) ?_ rfl
  intro name path dimension rest m₁ table₁ h₁ before
  exact (TextureTable.acquire_defaults path dimension table₁ h₁).mono
    fun _ _ _ same => same.trans before

theorem loadTextures_defaults (m : Material) (table : TextureTable) (h : Host) :
    Attempt.Ends loadTextures (m, table) h fun _ s' _ => s'.2.defaults = table.defaults := by
  refine ends_loadTextures.2 ((resolve_defaults m.unresolved m table h).mono fun _ _ _ same => ?_)
  exact (update_becomes _ _).mono fun _ _ _ _ => same

/-! ## Setters -/

/-- A setter of a material. -/
inductive Setting where
  | value (name : String) (value : Value)
  | path (name path : String)

/-- The material after a setter; one that is refused leaves it as it is. -/
def Setting.apply (m : Material) : Setting → Material
  | value name v => (m.setValue name v).toOption.getD m
  | path name p => (m.setTexturePath name p).toOption.getD m

theorem Setting.sets (m : Material) (setting : Setting) : Sets m (setting.apply m) := by
  have one {r : Except Error Material} (each : ∀ {m'}, r = .ok m' → Sets m m') :
      Sets m (r.toOption.getD m) := by
    cases r with
    | error e => exact Std.Refl.refl m
    | ok m' => exact each rfl
  cases setting with
  | value name v => exact one setValue_sets
  | path name p => exact one setTexturePath_sets

theorem sets_foldl (m : Material) (settings : List Setting) :
    Sets m (settings.foldl Setting.apply m) := by
  induction settings generalizing m with
  | nil => exact Std.Refl.refl m
  | cons setting rest ih => exact Trans.trans (setting.sets m) (ih (setting.apply m))

/-- The same material, with its textures resolved and clean. -/
structure Resolves (m m' : Material) : Prop extends Becomes m m' where
  pending : m'.pending = false
  clean : m'.dirty = false

/-- The device has of the material what it packs, unless that is nothing. -/
structure UpToDate (m : Material) (d : Device) : Prop where
  clean : m.dirty = false
  buffer : m.shader.bufferSize ≠ 0 →
    ∃ buffer, m.buffer = some buffer ∧ d.buffers.get? buffer = some m.packed

theorem Coherent.upToDate {m : Material} {d : Device} (coherent : m.Coherent d)
    (clean : m.dirty = false) : m.UpToDate d where
  clean := clean
  buffer bytes := by
    obtain ⟨buffer, has⟩ := Option.ne_none_iff_exists'.1 (coherent.made clean bytes)
    exact ⟨buffer, has, coherent.clean clean buffer has⟩

/-- A device that refuses no buffer lets textures be loaded. -/
theorem loadTextures_ok {m : Material} {table : TextureTable} {h : Host}
    (makes : ∀ n descriptor, h.device.policy n (.buffer descriptor) = none) :
    Attempt.Ends loadTextures (m, table) h fun r _ _ => r = .ok () := by
  refine ends_loadTextures.2 ((resolve_keeps m.unresolved (m, table) h).mono fun _ s₁ h₁ kept => ?_)
  exact update_ok (kept.device.policy ▸ makes)

/-- Saving a material leaves the device alone. -/
theorem save_device (m : Material) (path : String) (h : Host) :
    HostM.Ends (m.save path) h fun _ h' => h'.device = h.device := by
  unfold save
  rw [HostM.ends_bind, HostM.ends_get]
  dsimp only
  rw [HostM.ends_bind, HostM.ends_modify]
  split <;> rfl

end Material

/-! ## Requests -/

namespace Library

variable {l l' : Library} {h h' : Host}

theorem cares_of_moves (moves : Moves l h l' h') (spares : h.Spares h')
    (care : InCare l.materials none h.device) : InCare l'.materials none h'.device := by
  rw [moves.belongings.1]
  exact care.spares spares

theorem changeMaterial_cares (name : String) (settings : List Material.Setting)
    (care : InCare l.materials none h.device) :
    InCare (changeMaterial name (fun m => settings.foldl Material.Setting.apply m) l).materials
      none h.device := by
  unfold changeMaterial
  split
  · next m there =>
    exact care.rework there ((Material.sets_foldl m settings).worked (care.kept there))
  · exact care

theorem saveMaterial_cares (name path : String) (care : InCare l.materials none h.device) :
    Attempt.Ends (saveMaterial name path) l h fun _ l' h' =>
      InCare l'.materials none h'.device :=
  saveMaterial_rule (fun m _ => (m.save_device path h).mono fun _ _ same => same ▸ care)
    fun _ => care

/-- One material is resolved in its place. -/
theorem resolveMaterial_resolves {name : String} {m : Material}
    (care : InCare l.materials none h.device) (there : l.materials.get? name = some m) :
    Attempt.Ends (resolveMaterial name m) l h fun r l' h' =>
      InCare l'.materials none h'.device ∧ l'.textures.defaults = l.textures.defaults ∧
        ∃ m', l'.materials = l.materials.insert name m' ∧ (r = .ok () → m.Resolves m') := by
  have resolved : Attempt.Ends Material.loadTextures (m, l.textures) h fun r s' h' =>
      m.Worked h s'.1 h' ∧ s'.2.defaults = l.textures.defaults ∧ (r = .ok () → m.Resolves s'.1) :=
    ((Material.loadTextures_works l.textures (care.kept there) care.tidy).and
      ((Material.loadTextures_defaults m l.textures h).and
        (Material.loadTextures_becomes m l.textures h))).mono
      fun _ _ _ ⟨⟨worked, pending, clean⟩, same, becomes⟩ =>
        ⟨worked, same, fun ok => ⟨becomes, pending, clean ok⟩⟩
  obtain ⟨worked, same, resolves⟩ := resolved
  exact ⟨care.rework there worked, same, _, rfl, resolves⟩

/-- What resolving materials in order comes to when it is not refused: the pending ones are
counted and resolved, and no other material is touched. -/
structure ResolvesAll (materials : List (String × Material)) (l : Library) (n : Nat)
    (l' : Library) : Prop where
  count : n = (materials.filter fun e => e.2.pending).length
  each : ∀ e ∈ materials, e.2.pending = true →
    ∃ m', l'.materials.get? e.1 = some m' ∧ e.2.Resolves m'
  others : ∀ name, (∀ e ∈ materials, e.2.pending = true → e.1 ≠ name) →
    l'.materials.get? name = l.materials.get? name

theorem resolveAll_resolves (materials : List (String × Material)) (l : Library) (h : Host)
    (care : InCare l.materials none h.device)
    (ascends : materials.Pairwise fun entry later => entry.1 < later.1)
    (there : ∀ entry ∈ materials, l.materials.get? entry.1 = some entry.2) :
    Attempt.Ends (resolveAll materials) l h fun r l' h' =>
      InCare l'.materials none h'.device ∧ l'.textures.defaults = l.textures.defaults ∧
        ∀ n, r = .ok n → ResolvesAll materials l n l' := by
  induction materials generalizing l h with
  | nil =>
    refine ⟨care, rfl, fun n ok => ?_⟩
    cases ok
    exact ⟨rfl, fun _ mem => absurd mem List.not_mem_nil, fun _ _ => rfl⟩
  | cons entry rest ih =>
    obtain ⟨less, ascends⟩ := List.pairwise_cons.1 ascends
    obtain ⟨first, later⟩ := List.forall_mem_cons.1 there
    have apart : ∀ other ∈ rest, other.1 ≠ entry.1 := fun other mem same =>
      Std.lt_irrefl (same ▸ less other mem)
    unfold resolveAll
    split
    · next pending =>
      refine (resolveMaterial_resolves care first).bind ?_ fun _ _ _ failed =>
        ⟨failed.1, failed.2.1, fun _ ok => by cases ok⟩
      rintro _ l₁ h₁ ⟨care₁, same₁, m', is, resolves⟩
      -- The materials that are still to be resolved are as they were.
      have there₁ : ∀ other ∈ rest, l₁.materials.get? other.1 = some other.2 := by
        intro other mem
        rw [is, OrderedMap.get?_insert_of_ne _ (apart other mem)]
        exact later other mem
      refine (ih l₁ h₁ care₁ ascends there₁).bind ?_ fun _ _ _ failed =>
        ⟨failed.1, failed.2.1.trans same₁, fun _ ok => by cases ok⟩
      rintro n l₂ h₂ ⟨care₂, same₂, all⟩
      obtain ⟨count, each, others⟩ := all n rfl
      refine (Attempt.ends_pure _).2 ⟨care₂, same₂.trans same₁, fun n' ok => ?_⟩
      cases ok
      refine ⟨?_, List.forall_mem_cons.2 ⟨fun _ => ⟨m', ?_, resolves rfl⟩, each⟩,
        fun name unlike => ?_⟩
      · rw [List.filter_cons, if_pos pending, List.length_cons, ← count]
      · rw [others _ fun other mem _ => apart other mem, is]
        exact OrderedMap.get?_insert_self _ _ _
      · obtain ⟨other, unlike⟩ := List.forall_mem_cons.1 unlike
        rw [others name unlike, is, OrderedMap.get?_insert_of_ne _ (Ne.symm (other pending))]
    · next idle =>
      refine (ih l h care ascends later).mono ?_
      rintro r l' h' ⟨care', same, all⟩
      refine ⟨care', same, fun n ok => ?_⟩
      obtain ⟨count, each, others⟩ := all n ok
      refine ⟨?_, List.forall_mem_cons.2 ⟨fun pending => absurd pending idle, each⟩,
        fun name unlike => others name (List.forall_mem_cons.1 unlike).2⟩
      rw [List.filter_cons, if_neg idle]
      exact count

theorem resolvePending_resolves (care : InCare l.materials none h.device) :
    Attempt.Ends resolvePending l h fun r l' h' => InCare l'.materials none h'.device ∧
      ∀ n, r = .ok n → TextureTable.AllMade l'.textures.defaults ∧
        ResolvesAll l.materials.entries l n l' := by
  unfold resolvePending
  have made : Attempt.Ends ensureDefaultTextures l h fun r l' _ =>
      r = .ok () → TextureTable.AllMade l'.textures.defaults :=
    (Attempt.ends_focus _ _ _).2 (TextureTable.ensureDefaults_makes l.textures h)
  refine (ensureDefaultTextures_spares.and made).bind ?_ ?_
  · rintro _ l₁ h₁ ⟨⟨materials, spares⟩, made⟩
    rw [Attempt.ends_bind, Attempt.ends_get, Attempt.after_ok]
    rw [← materials] at care
    have spared := care.spares spares
    have sorted := spared.custody.sorted
    refine (resolveAll_resolves _ l₁ h₁ spared sorted fun _ mem =>
      sorted.get?_eq_some_iff.2 mem).mono ?_
    rintro r l₂ h₂ ⟨care₂, same, all⟩
    refine ⟨care₂, fun n ok => ⟨same ▸ made rfl, ?_⟩⟩
    obtain ⟨count, each, others⟩ := all n ok
    rw [materials] at count each others
    exact ⟨count, each, others⟩
  · rintro e l₁ h₁ ⟨⟨materials, spares⟩, _⟩
    rw [materials]
    exact ⟨care.spares spares, nofun⟩

/-- Where all default textures are there and no material is pending, nothing is done. -/
theorem resolvePending_idle (made : TextureTable.AllMade l.textures.defaults)
    (none : ∀ e ∈ l.materials.entries, e.2.pending = false) :
    Attempt.Ends resolvePending l h fun r l' h' => r = .ok 0 ∧ l' = l ∧ h' = h := by
  have idle (materials : List (String × Material))
      (none : ∀ e ∈ materials, e.2.pending = false) : resolveAll materials = pure 0 := by
    induction materials with
    | nil => rfl
    | cons entry rest ih =>
      obtain ⟨first, later⟩ := List.forall_mem_cons.1 none
      rw [resolveAll, if_neg (by simp [first])]
      exact ih later
  have kept : Attempt.Ends ensureDefaultTextures l h fun r l' h' =>
      r = .ok () ∧ l' = l ∧ h' = h :=
    (Attempt.ends_focus _ _ _).2 ((TextureTable.ensureDefaults_idle made).mono
      fun _ _ _ ⟨ok, same, world⟩ => ⟨ok, by rw [same], world⟩)
  unfold resolvePending
  refine kept.bind ?_ fun _ _ _ ⟨is, _⟩ => nomatch is
  rintro _ _ _ ⟨_, rfl, rfl⟩
  rw [Attempt.ends_bind, Attempt.ends_get, Attempt.after_ok, idle _ none]
  exact ⟨rfl, rfl, rfl⟩

end Library

namespace Operation

open Library

/-- Materials are changed from outside by setters alone. -/
def SetsOnly : Operation → Prop
  | changeMaterial _ change => ∃ settings : List Material.Setting,
      change = fun m => settings.foldl Material.Setting.apply m
  | _ => True

/-- Every operation keeps the materials in care. -/
theorem cares (op : Operation) (sets : op.SetsOnly) (l : Library) (h : Host)
    (sound : l.Sound h.device) (idle : l.registry.state = .idle)
    (care : InCare l.materials none h.device) :
    Attempt.Ends op.attempt l h fun _ l' h' => InCare l'.materials none h'.device := by
  cases op with
  | world disk loader rejected policy => exact care.congr rfl (Nat.le_refl _)
  | registerSource name text => exact care
  | registerShaders names =>
    exact .done (((registerShaders_ends names l h idle).and (registerShaders_keeps names l h)).mono
      fun _ _ _ ⟨⟨gathered, _⟩, spares⟩ => cares_of_moves gathered.moves spares care)
  | registerAll =>
    exact .done (((registerAll_ends l h idle).and (registerAll_keeps l h)).mono
      fun _ _ _ ⟨⟨gathered, _⟩, spares⟩ => cares_of_moves gathered.moves spares care)
  | compilePending =>
    exact ((compilePending_ends l h sound idle).and (compilePending_keeps l h)).mono
      fun _ _ _ ⟨compiled, spares⟩ => cares_of_moves compiled.moves spares care
  | loadAll =>
    exact ((loadAll_ends l h sound idle).and (loadAll_keeps l h)).mono
      fun _ _ _ ⟨loaded, spares⟩ => cares_of_moves loaded.moves spares care
  | loadShader name =>
    exact .done (((loadShader_builds name sound idle).and (loadShader_keeps name l h)).mono
      fun _ _ _ ⟨⟨moves, _⟩, spares⟩ => cares_of_moves moves spares care)
  | regenerate =>
    exact .done (((regenerateExcept_ends [] l h sound idle fun _ mem =>
      absurd mem List.not_mem_nil).and (regenerateExcept_keeps [] l h)).mono
        fun _ _ _ ⟨regenerated, spares⟩ => cares_of_moves regenerated.moves spares care)
  | createMaterial name shader => exact .done (createMaterial_cares name shader sound idle care)
  | createDefaults => exact .done (createDefaults_cares sound idle care)
  | loadMaterial path commands => exact .done (loadMaterial_cares path commands sound idle care)
  | resolvePending =>
    exact .done ((resolvePending_resolves care).mono fun _ _ _ resolved => resolved.1)
  | changeMaterial name change =>
    obtain ⟨settings, rfl⟩ := sets
    exact changeMaterial_cares name settings care
  | bindMaterial name => exact bindNamed_cares name care
  | saveMaterial name path => exact saveMaterial_cares name path care
  | releaseTexture path =>
    exact .done ((Attempt.ends_liftWork _).2 ((TextureTable.release_keeps path _ h).mono
      fun _ _ _ keeps => care.spares keeps.toSpares))
  | shutdown =>
    refine (Attempt.ends_liftWork _).2 ((shutdown_tends care.custody).mono ?_)
    rintro _ l' h' ⟨none, tends⟩
    refine ⟨tends.custody, fun there => ?_, nofun⟩
    rw [none] at there
    cases there

end Operation

namespace Session

/-- The materials of a session are in care. -/
def InCare (s : Session) : Prop := SurfaceShading.InCare s.library.materials none s.host.device

theorem start_inCare (config : Config) (texts : OrderedMap String String) (loader : Loader)
    (disk : Disk) : (start config texts loader disk).InCare :=
  ⟨(start_custody config texts loader disk).1, (fun is => nomatch is), nofun⟩

theorem run_inCare {s : Session} (sound : s.Sound) (care : s.InCare) (ops : List Operation)
    (setters : ∀ op ∈ ops, op.SetsOnly) : (s.run ops).InCare := by
  induction ops generalizing s with
  | nil => exact care
  | cons op rest ih =>
    obtain ⟨sets, setters⟩ := List.forall_mem_cons.1 setters
    have after : (s.step op).InCare :=
      (s.ends_perform op).1 (op.cares sets s.library s.host sound.library sound.idle care)
    rw [run_cons]
    exact ih (step_sound sound op) after setters

/-- Resolves the textures of all pending materials, with the number of them for an answer. -/
def resolve (s : Session) : Except Error Nat × Session :=
  let ((answer, library), host) := (Library.resolvePending.run.run s.library).run s.host
  (answer, ⟨library, host⟩)

/-- What it comes to is the next session. -/
theorem ends_resolve (s : Session) {post : Except Error Nat → Library → Host → Prop} :
    Attempt.Ends Library.resolvePending s.library s.host post ↔
      post s.resolve.1 s.resolve.2.library s.resolve.2.host := Iff.rfl

/-- It is what the operation does. -/
theorem step_resolvePending (s : Session) : s.step .resolvePending = s.resolve.2 := by
  have ended : Attempt.Ends Operation.resolvePending.attempt s.library s.host fun _ l' h' =>
      l' = s.resolve.2.library ∧ h' = s.resolve.2.host :=
    .done (s.ends_resolve.2 ⟨rfl, rfl⟩)
  obtain ⟨library, host⟩ := (s.ends_perform .resolvePending).1 ended
  exact congrArg₂ Session.mk library host

/-- What resolving all textures comes to when it is not refused: the pending materials are
counted, and none is left; each is still what it was set to be, with a slot for every path and on
the device as it packs; and to do it again does nothing. -/
structure ResolvedAs (s : Session) (n : Nat) (s' : Session) : Prop where
  count : n = (s.library.materials.entries.filter fun e => e.2.pending).length
  none : ∀ {name m}, s'.library.materials.get? name = some m → m.pending = false
  each : ∀ {name m}, s.library.materials.get? name = some m → m.pending = true →
    ∃ m', s'.library.materials.get? name = some m' ∧ m.Becomes m' ∧
      (∀ texture path, m.texturePaths.get? texture = some path →
        ∃ index, m'.textureIndices.get? texture = some index) ∧
      m'.UpToDate s'.host.device
  step : s' = s.step .resolvePending
  again : s'.resolve = (.ok 0, s')

theorem resolve_of_ok {s s' : Session} (care : s.InCare) {n : Nat}
    (ok : s.resolve = (.ok n, s')) : s.ResolvedAs n s' := by
  obtain ⟨care', all⟩ := s.ends_resolve.1 (Library.resolvePending_resolves care)
  obtain ⟨made, count, each, others⟩ := all n (congrArg Prod.fst ok)
  obtain rfl : s.resolve.2 = s' := congrArg Prod.snd ok
  have sorted : s.library.materials.Sorted := care.custody.sorted
  have resolved {name : String} {m : Material} (there : s.library.materials.get? name = some m)
      (pending : m.pending = true) :
      ∃ m', s.resolve.2.library.materials.get? name = some m' ∧ m.Resolves m' :=
    each (name, m) (sorted.get?_eq_some_iff.1 there) pending
  have none {name : String} {m : Material}
      (there : s.resolve.2.library.materials.get? name = some m) : m.pending = false := by
    by_cases was : ∃ m₀, s.library.materials.get? name = some m₀ ∧ m₀.pending = true
    · obtain ⟨m₀, there₀, pending⟩ := was
      obtain ⟨m', there', resolves⟩ := resolved there₀ pending
      cases there'.symm.trans there
      exact resolves.pending
    · have same := others name fun e mem pending is =>
        was ⟨e.2, sorted.get?_eq_some_iff.2 (is ▸ mem), pending⟩
      exact Bool.eq_false_iff.2 fun pending => was ⟨m, same ▸ there, pending⟩
  refine ⟨count, none, fun {name m} there pending => ?_, s.step_resolvePending.symm, ?_⟩
  · obtain ⟨m', there', resolves⟩ := resolved there pending
    have tended : m'.Tended s.resolve.2.host.device := care'.kept there'
    refine ⟨m', there', resolves.toBecomes, fun texture path is => ?_,
      tended.coherent.upToDate resolves.clean⟩
    -- The flag is down, and it is exact, so the path cannot be without a slot.
    have indexed : ¬m'.Unindexed := fun unindexed => by
      have pending' := tended.tracked.exact.2 unindexed
      rw [resolves.pending] at pending'
      cases pending'
    refine Option.ne_none_iff_exists'.1 fun none => indexed ⟨texture, path, ?_, none⟩
    rw [resolves.texturePaths]
    exact is
  · have idle := Library.resolvePending_idle (h := s.resolve.2.host) made fun e mem =>
      none (care'.custody.sorted.get?_eq_some_iff.2 mem)
    obtain ⟨answer, library, host⟩ := s.resolve.2.ends_resolve.1 idle
    exact Prod.ext answer (congrArg₂ Session.mk library host)

/-- **Pending textures are tracked exactly.** After any operations of a session, with setters on
its materials and whatever was refused, a material is pending iff some of its paths has no slot.
If the textures of all pending materials are resolved then and this is not refused, the answer is
the number of them, and none is left: each has a slot for every path and is on the device as it
packs. To resolve again at once gives zero, and changes nothing in the library or in the world. -/
theorem pending_exact (config : Config) (texts : OrderedMap String String) (loader : Loader)
    (disk : Disk) (ops : List Operation) (setters : ∀ op ∈ ops, op.SetsOnly) :
    let s := (start config texts loader disk).run ops
    (∀ name m, s.library.materials.get? name = some m → (m.pending = true ↔ m.Unindexed)) ∧
    ∀ n s', s.resolve = (.ok n, s') → s.ResolvedAs n s' := by
  intro s
  have care : s.InCare := run_inCare (start_sound config texts loader disk)
    (start_inCare config texts loader disk) ops setters
  exact ⟨fun name m there => (care.kept there).tracked.exact, fun n s' => resolve_of_ok care⟩

/-! ## A path that is resolved later -/

/-- The shader has a material, which gets a path. -/
def covering : List Operation :=
  coating "Paint" ++ [.changeMaterial "Base" fun m =>
    [Material.Setting.path "Cover" "wood.png"].foldl Material.Setting.apply m]

theorem covering_setsOnly : ∀ op ∈ covering, op.SetsOnly := by
  refine List.forall_mem_append.2 ⟨?_, fun op mem => ?_⟩
  · simp [coating, Operation.SetsOnly]
  · rw [List.mem_singleton.1 mem]
    exact ⟨_, rfl⟩

/-- Then the one material is pending, and the device refuses nothing. -/
theorem Coated.covered {s : Session} {m : Material} (coated : Coated "Paint" s m) :
    (∃ m', m'.pending = true ∧ (s.run covering).library.materials = ⟨[("Base", m')]⟩) ∧
      (s.run covering).host.device.policy = Device.acceptAll := by
  have takes : m.shader.TakesPath "Cover" := by
    rw [coated.shader]
    exact ⟨_, rfl, rfl⟩
  have set : m.setTexturePath "Cover" "wood.png" = .ok _ :=
    Material.setTexturePath_eq_ok.2 ⟨takes, rfl⟩
  have changed : (s.run covering).library.materials =
      (s.run (coating "Paint")).library.materials.insert "Base"
        (Material.Setting.apply m (.path "Cover" "wood.png")) := by
    show (Library.changeMaterial "Base" _ (s.run (coating "Paint")).library).materials = _
    unfold Library.changeMaterial
    rw [coated.there]
    rfl
  rw [coated.materials, Material.Setting.apply, set] at changed
  exact ⟨⟨_, rfl, changed⟩, rfl⟩

/-- A device that refuses nothing resolves the one material that is pending. -/
theorem resolve_accepted {s : Session} {name : String} {m : Material} (pending : m.pending = true)
    (one : s.library.materials = ⟨[(name, m)]⟩)
    (policy : s.host.device.policy = Device.acceptAll) : s.resolve.1 = .ok 1 := by
  have defaults : Attempt.Ends Library.ensureDefaultTextures s.library s.host fun r _ _ =>
      r = .ok () := by
    refine (Attempt.ends_focus _ _ _).2 (TextureTable.ensureDefaults_accepted ?_)
    rw [policy]
    exact fun _ _ => rfl
  have ended : Attempt.Ends Library.resolvePending s.library s.host fun r _ _ => r = .ok 1 := by
    unfold Library.resolvePending
    refine (Library.ensureDefaultTextures_spares.and defaults).bind ?_
      fun _ _ _ ⟨_, is⟩ => nomatch is
    rintro _ l₁ h₁ ⟨⟨materials, spares⟩, _⟩
    rw [Attempt.ends_bind, Attempt.ends_get, Attempt.after_ok, materials, one]
    unfold Library.resolveAll
    rw [if_pos pending]
    have loaded : Attempt.Ends Material.loadTextures (m, l₁.textures) h₁ fun r _ _ =>
        r = .ok () := by
      refine Material.loadTextures_ok ?_
      rw [spares.device.policy, policy]
      exact fun _ _ => rfl
    have resolved : Attempt.Ends (Library.resolveMaterial name m) l₁ h₁ fun r _ _ =>
        r = .ok () := loaded
    exact resolved.bind (fun _ _ _ _ => rfl) fun _ _ _ is => nomatch is
  exact s.ends_resolve.1 ended

/-- A path that is set waits, and is resolved without an error when it is asked for. -/
theorem cover_resolved :
    (∀ op ∈ covering, op.SetsOnly) ∧
    let s := paintShop.run covering
    ∃ m, s.library.materials.get? "Base" = some m ∧ m.pending = true ∧ m.Unindexed ∧
      ∃ s', s.resolve = (.ok 1, s') ∧ s.ResolvedAs 1 s' := by
  obtain ⟨m, coated⟩ := paintsAnew_paintShop.coated rfl
  obtain ⟨⟨m', pending, one⟩, policy⟩ := coated.covered
  have exactly := pending_exact .standard (OrderedMap.empty.insert "Paint" paintText)
    (.stub [] []) coatDisk covering covering_setsOnly
  rw [← paintShop] at exactly
  have there : (paintShop.run covering).library.materials.get? "Base" = some m' := by
    rw [one]
    rfl
  have ok := resolve_accepted pending one policy
  exact ⟨covering_setsOnly, m', there, pending, (exactly.1 "Base" m' there).1 pending, _,
    Prod.ext ok rfl, exactly.2 1 _ (Prod.ext ok rfl)⟩

end Session

end SurfaceShading
