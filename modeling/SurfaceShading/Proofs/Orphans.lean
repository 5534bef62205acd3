/-
  Orphans. A buffer of the device that no material of a session owns is an orphan: nothing will
  ever destroy it. Between two operations every buffer that a material owns is there and is owned
  by this material alone, whatever was refused on the way. Orphans are made in one place only
  (`Operation.Strands`): a material is loaded from a file with a command list, its buffer is made,
  and then the device refuses a default texture, so that the material is given up and its buffer
  is not. A session without such a load has no orphan, and one with it keeps the orphan for good,
  shut down or not (`Session.buffers_owned_iff`).
-/
import SurfaceShading.Proofs.Library.Custody
import SurfaceShading.Proofs.LoadOrder
import SurfaceShading.Proofs.Texture.Table

namespace SurfaceShading

namespace Library

variable {l l' : Library} {h h' : Host}

/-- What is done to shaders concerns no owner. -/
theorem tends_of_moves (moves : Moves l h l' h') (spares : h.Spares h')
    (custody : Custody l.materials none h.device) :
    Tends l.materials none h.device l'.materials none h'.device := by
  rw [moves.belongings.1]
  exact custody.keepsLive spares.keepsLive

theorem changeMaterial_tends {name : String} {change : Material → Material}
    (spares : ∀ m, (change m).buffer = m.buffer) (custody : Custody l.materials none h.device) :
    Tends l.materials none h.device (changeMaterial name change l).materials none h.device := by
  unfold changeMaterial
  split
  · next m there =>
    have holds : m.Holds h.device := fun _ is => custody.owned ⟨name, m, there, is⟩
    refine custody.replace there ?_
    rw [spares]
    exact Host.KeepsLive.trades (Std.Refl.refl h) holds
  · exact .refl custody

theorem bindNamed_tends (name : String) (custody : Custody l.materials none h.device) :
    Attempt.Ends (bindNamed name) l h fun _ l' h' =>
      Tends l.materials none h.device l'.materials none h'.device :=
  bindNamed_rule (fun _ there => bindMaterial_tends custody there) (.refl custody)

end Library

namespace Operation

open Library

/-- Of materials no buffer is changed from outside. -/
def SparesBuffers : Operation → Prop
  | changeMaterial _ change => ∀ m, (change m).buffer = m.buffer
  | _ => True

/-- The operation gives a new material up that has its buffer. -/
def Strands : Operation → Library → Host → Prop
  | loadMaterial path commands, l, h => StrandsFile path commands l h
  | _, _, _ => False

/-- Every operation keeps custody of the buffers, and makes an orphan iff it strands a material. -/
theorem leaves (op : Operation) (spares : op.SparesBuffers) (l : Library) (h : Host)
    (sound : l.Sound h.device) (idle : l.registry.state = .idle)
    (custody : Custody l.materials none h.device) :
    Attempt.Ends op.attempt l h fun _ l' h' =>
      Leaves (op.Strands l h) l.materials none h.device l'.materials h'.device := by
  have fine {l' : Library} {h' : Host}
      (tends : Tends l.materials none h.device l'.materials none h'.device) :
      Leaves False l.materials none h.device l'.materials h'.device := tends.leaves id
  cases op with
  | world disk loader rejected policy =>
    have same : h.KeepsLive (h.altered disk loader rejected policy) :=
      ⟨fun _ => Iff.rfl, Nat.le_refl _⟩
    exact fine (custody.keepsLive same)
  | registerSource name text => exact fine (.refl custody)
  | registerShaders names =>
    exact .done (((registerShaders_ends names l h idle).and (registerShaders_keeps names l h)).mono
      fun _ _ _ ⟨⟨gathered, _⟩, spares⟩ => fine (tends_of_moves gathered.moves spares custody))
  | registerAll =>
    exact .done (((registerAll_ends l h idle).and (registerAll_keeps l h)).mono
      fun _ _ _ ⟨⟨gathered, _⟩, spares⟩ => fine (tends_of_moves gathered.moves spares custody))
  | compilePending =>
    exact ((compilePending_ends l h sound idle).and (compilePending_keeps l h)).mono
      fun _ _ _ ⟨compiled, spares⟩ => fine (tends_of_moves compiled.moves spares custody)
  | loadAll =>
    exact ((loadAll_ends l h sound idle).and (loadAll_keeps l h)).mono
      fun _ _ _ ⟨loaded, spares⟩ => fine (tends_of_moves loaded.moves spares custody)
  | loadShader name =>
    refine .done ((loadShader_belongings name sound idle).mono ?_)
    rintro _ l' h' ⟨materials, _, spares⟩
    rw [materials]
    exact fine (custody.keepsLive spares.keepsLive)
  | regenerate =>
    exact .done (((regenerateExcept_ends [] l h sound idle fun _ mem =>
      absurd mem List.not_mem_nil).and (regenerateExcept_keeps [] l h)).mono
        fun _ _ _ ⟨regenerated, spares⟩ => fine (tends_of_moves regenerated.moves spares custody))
  | createMaterial name shader =>
    exact .done ((createMaterial_tends name shader sound idle custody).mono fun _ _ _ => fine)
  | createDefaults =>
    exact .done ((createDefaults_tends sound idle custody).mono fun _ _ _ => fine)
  | loadMaterial path commands => exact .done (loadMaterial_leaves path commands sound idle custody)
  | resolvePending => exact .done ((resolvePending_tends custody).mono fun _ _ _ => fine)
  | changeMaterial name change => exact fine (changeMaterial_tends spares custody)
  | bindMaterial name => exact (bindNamed_tends name custody).mono fun _ _ _ => fine
  | saveMaterial name path =>
    exact (saveMaterial_tends name path custody).mono fun _ _ _ => fine
  | releaseTexture path =>
    exact .done ((Attempt.ends_liftWork _).2 ((TextureTable.release_keeps path _ h).mono
      fun _ _ _ keeps => fine (custody.keepsLive keeps.toSpares.keepsLive)))
  | shutdown =>
    exact (Attempt.ends_liftWork _).2 ((shutdown_tends custody).mono fun _ _ _ ⟨_, tends⟩ =>
      fine tends)

end Operation

namespace Session

/-- Some operation of a run gives a material up that has its buffer. -/
def StrandsIn : Session → List Operation → Prop
  | _, [] => False
  | s, op :: rest => op.Strands s.library s.host ∨ (s.step op).StrandsIn rest

theorem run_leaves {s : Session} (sound : s.Sound)
    (custody : Custody s.library.materials none s.host.device) (ops : List Operation)
    (spare : ∀ op ∈ ops, op.SparesBuffers) :
    Leaves (s.StrandsIn ops) s.library.materials none s.host.device
      (s.run ops).library.materials (s.run ops).host.device := by
  induction ops generalizing s with
  | nil => exact (Tends.refl custody).leaves id
  | cons op rest ih =>
    have first := (s.ends_perform op).1 (op.leaves (spare op List.mem_cons_self) s.library s.host
      sound.library sound.idle custody)
    have later := ih (step_sound sound op) first.custody fun other mem =>
      spare other (List.mem_cons_of_mem op mem)
    refine ⟨later.custody, later.noOrphan.trans ?_⟩
    rw [first.noOrphan, StrandsIn, not_or, and_assoc]

/-- A new session has no buffers. -/
theorem start_custody (config : Config) (texts : OrderedMap String String) (loader : Loader)
    (disk : Disk) :
    let s := start config texts loader disk
    Custody s.library.materials none s.host.device ∧
      NoOrphan s.library.materials none s.host.device :=
  ⟨{ sorted := OrderedMap.sorted_empty
     tidy := fun _ ⟨_, is⟩ => nomatch is
     owned := fun ⟨_, _, is, _⟩ => nomatch is
     single := fun is => nomatch is
     loose := nofun }, fun _ ⟨_, is⟩ => nomatch is⟩

/-- A load without commands strands no material. -/
theorem not_strands_uncommanded (path : String) (l : Library) (h : Host) :
    ¬ Library.StrandsFile path false l h := by
  rintro ⟨_, _, _, _, _, stranded⟩
  have impossible : Attempt.Ends _ l h fun _ _ _ => False :=
    stranded.mono fun _ _ _ ⟨_, _, commanded, _⟩ => Bool.false_ne_true commanded
  exact impossible

theorem not_strandsIn {s : Session} {ops : List Operation}
    (each : ∀ op ∈ ops, ∀ l h, ¬ op.Strands l h) : ¬ s.StrandsIn ops := by
  induction ops generalizing s with
  | nil => exact id
  | cons op rest ih =>
    rintro (stranded | later)
    · exact each op List.mem_cons_self _ _ stranded
    · exact ih (fun other mem => each other (List.mem_cons_of_mem op mem)) later

/-! ## All buffers -/

/-- A forward shader of one pass and one texture. -/
def paintText : String :=
  "Shader \"Paint\" \x7b Properties \x7b\n//# Texture2D Cover\n\x7d Pass \x7b HLSLPROGRAM\n" ++
    "#pragma vertex pass\n#pragma fragment pass\nENDHLSL \x7d \x7d"

/-- A file of a material that sets nothing. -/
def coatDisk : Disk :=
  .ofFiles [] [("coat.json", Text.utf8 "\x7b\"name\": \"Coat\", \"shader\": \"Paint\"\x7d")]

theorem coat_headed : MaterialHeader.load coatDisk "coat.json" = .ok ⟨"Coat", "Paint"⟩ :=
  ok_of_toOption (by decide +kernel)

theorem coat_read :
    MaterialFile.load coatDisk "coat.json" = .ok ⟨"Coat", "Paint", .empty, .empty⟩ :=
  ok_of_toOption (by decide +kernel)

/-- A new session of the shader and the file. -/
def paintShop : Session :=
  start .standard (OrderedMap.empty.insert "Paint" paintText) (.stub [] []) coatDisk

/-- **Which buffers are lost.** After any operations of a session, whatever the device refused,
every buffer that a material owns is on the device, and no other material owns it. All buffers
of the device are owned by materials iff no operation gave up a material that had its buffer: a
load of a material file, with commands, to which the device refused a default texture. A shutdown
after that leaves no material, and no buffer iff none was lost before. -/
theorem buffers_owned_iff (config : Config) (texts : OrderedMap String String) (loader : Loader)
    (disk : Disk) (ops : List Operation) (spare : ∀ op ∈ ops, op.SparesBuffers) :
    let s := start config texts loader disk
    let s' := s.run ops
    (∀ buffer, Owned s'.library.materials buffer → s'.host.device.IsLive buffer) ∧
    (∀ name name' m m' buffer, s'.library.materials.get? name = some m →
      s'.library.materials.get? name' = some m' → m.buffer = some buffer →
        m'.buffer = some buffer → name = name') ∧
    ((∀ buffer, s'.host.device.IsLive buffer → Owned s'.library.materials buffer) ↔
      ¬ s.StrandsIn ops) ∧
    (s'.step .shutdown).library.materials = .empty ∧
    ((∀ buffer, ¬ (s'.step .shutdown).host.device.IsLive buffer) ↔ ¬ s.StrandsIn ops) := by
  intro s s'
  obtain ⟨custody, noOrphan⟩ := start_custody config texts loader disk
  have sound := start_sound config texts loader disk
  have leaves : Leaves (s.StrandsIn ops) _ _ _ s'.library.materials s'.host.device :=
    run_leaves sound custody ops spare
  have kept : NoOrphan s'.library.materials none s'.host.device ↔ ¬ s.StrandsIn ops :=
    leaves.noOrphan.trans (and_iff_right noOrphan)
  have shut : (s'.step .shutdown).library.materials = .empty ∧
      Tends s'.library.materials none s'.host.device (s'.step .shutdown).library.materials none
        (s'.step .shutdown).host.device := Library.shutdown_tends leaves.custody
  obtain ⟨empty, shut⟩ := shut
  refine ⟨fun _ => leaves.custody.owned, fun _ _ _ _ _ => leaves.custody.single, ?_, empty, ?_⟩
  · rw [← kept]
    exact forall₂_congr fun _ _ => (or_iff_left nofun).symm
  · rw [← kept, ← shut.noOrphan, empty]
    refine forall_congr' fun buffer => imp_congr_right fun _ => iff_of_false id ?_
    rintro (⟨_, _, is, _⟩ | is)
    · cases is
    · cases is

/-- The material is loaded without commands, changed and bound. -/
def quietLoad : List Operation :=
  [.loadMaterial "coat.json" false, .changeMaterial "Coat" fun m => { m with dirty := true },
    .bindMaterial "Coat"]

theorem quietLoad_buffers_owned :
    (∀ op ∈ quietLoad, op.SparesBuffers) ∧
    (∀ buffer, (paintShop.run quietLoad).host.device.IsLive buffer ↔
      Owned (paintShop.run quietLoad).library.materials buffer) ∧
    ∀ buffer, ¬ ((paintShop.run quietLoad).step .shutdown).host.device.IsLive buffer := by
  have spare : ∀ op ∈ quietLoad, op.SparesBuffers := by
    simp [quietLoad, Operation.SparesBuffers]
  have unstranded : ¬ paintShop.StrandsIn quietLoad := not_strandsIn <| by
    simp [quietLoad, Operation.Strands, not_strands_uncommanded]
  have owned := buffers_owned_iff .standard (OrderedMap.empty.insert "Paint" paintText)
    (.stub [] []) coatDisk quietLoad spare
  rw [← paintShop] at owned
  obtain ⟨live, _, owned, _, shut⟩ := owned
  exact ⟨spare, fun buffer => ⟨owned.2 unstranded buffer, live buffer⟩, shut.2 unstranded⟩

/-! ## A shader that is loaded -/

/-- What the text declares. -/
def paintDefinition : Definition :=
  ⟨"Paint", .forward, [.plain "Cover" (.texture .d2)], [⟨"Pass0", .forward, "pass", "pass", ""⟩],
    none⟩

def paintShader : Shader :=
  ⟨paintDefinition, Layout.ofProperties paintDefinition.properties, false⟩

/-- A session that has the text under a name and no shader yet, in a world that refuses
nothing. -/
structure PaintsAnew (key : String) (s : Session) : Prop where
  sound : s.Sound
  config : s.library.config = .standard
  other : key ≠ s.library.config.sharedShader
  sources : s.library.sources = ⟨OrderedMap.empty.insert key paintText, none⟩
  shaders : s.library.shaders = .empty
  registry : s.library.registry = .new
  pending : s.library.pending = []
  policy : s.host.device.policy = Device.acceptAll
  rejected : s.host.device.rejected = none

theorem paintsAnew_paintShop : PaintsAnew "Paint" paintShop where
  sound := start_sound ..
  config := rfl
  other := by decide
  sources := rfl
  shaders := rfl
  registry := rfl
  pending := rfl
  policy := rfl
  rejected := rfl

theorem paint_parsed : (Definition.parseComplete paintText "Screen"
    (.error (.notFound "Screen"))).result = .ok paintDefinition :=
  ok_of_toOption (by decide +kernel)

theorem paint_compilable (options : SourceOptions) : paintShader.Compilable options := by
  refine Shader.compilable_of_entries (fun index lt => ?_) (by decide +kernel) options
  obtain rfl : index = 0 := Nat.lt_one_iff.1 lt
  exact ⟨.forward, rfl⟩

namespace PaintsAnew

variable {key : String} {s : Session}

theorem read_self (anew : PaintsAnew key s) (disk : Disk) :
    s.library.sources.read disk key = .ok paintText := by
  unfold ShaderSources.read
  rw [anew.sources, OrderedMap.get?_insert_self]

/-- There is no other text. -/
theorem read_other (anew : PaintsAnew key s) (disk : Disk) {name : String} (ne : name ≠ key) :
    s.library.sources.read disk name = .error (.notFound name) := by
  unfold ShaderSources.read
  rw [anew.sources, OrderedMap.get?_insert_of_ne _ ne]
  rfl

theorem declares_iff (anew : PaintsAnew key s) {disk : Disk} {name : String}
    {definition : Definition} :
    s.library.Declares disk name definition ↔ name = key ∧ definition = paintDefinition := by
  unfold Library.Declares
  rw [anew.read_other disk (Ne.symm anew.other), anew.config]
  constructor
  · rintro ⟨text, read, parsed⟩
    by_cases is : name = key
    · rw [is, anew.read_self] at read
      cases read
      exact ⟨is, Except.ok.inj (parsed.symm.trans paint_parsed)⟩
    · rw [anew.read_other disk is] at read
      cases read
  · rintro ⟨rfl, rfl⟩
    exact ⟨paintText, anew.read_self disk, paint_parsed⟩

/-- What the text declares makes one shader. -/
theorem made_eq (anew : PaintsAnew key s) :
    Shader.ofDefinition paintDefinition (key == s.library.config.sharedShader)
      s.library.config.bufferLimit = .ok paintShader := by
  rw [beq_false_of_ne anew.other, anew.config]
  rfl

theorem offers (anew : PaintsAnew key s) : s.library.Offers key := fun _ =>
  ⟨paintDefinition, paintShader, anew.declares_iff.2 ⟨rfl, rfl⟩, anew.made_eq⟩

theorem made (anew : PaintsAnew key s) {disk : Disk} {name : String} {definition : Definition}
    {shader : Shader} (declares : s.library.Declares disk name definition)
    (made : Shader.ofDefinition definition (name == s.library.config.sharedShader)
      s.library.config.bufferLimit = .ok shader) : shader = paintShader := by
  obtain ⟨rfl, rfl⟩ := anew.declares_iff.1 declares
  exact Except.ok.inj (made.symm.trans anew.made_eq)

theorem willing (anew : PaintsAnew key s) : s.library.Willing s.host where
  sound := anew.sound.library
  compilable :=
    { noCache := by rw [anew.config]; rfl
      declared := fun _ _ _ _ declares made => by
        rw [anew.made declares made]
        exact paint_compilable _
      known := fun _ _ is => by
        rw [anew.shaders] at is
        cases is }
  compiles := ⟨fun _ _ _ _ => by rw [anew.policy]; rfl, anew.rejected⟩
  makes := fun _ _ => by rw [anew.policy]; rfl

/-- The shader is loaded without a failure, and no other. -/
theorem loads (anew : PaintsAnew key s) :
    Library.Moves s.library s.host (s.step (.loadShader key)).library
      (s.step (.loadShader key)).host ∧
    (∃ o, (s.step (.loadShader key)).library.built? key = some o ∧ o.shader = paintShader) ∧
    ∀ name, (s.step (.loadShader key)).library.Knows name ↔ name = key := by
  have ok := step_ok anew.sound anew.willing (.load key) fun other mem => by
    rw [List.mem_singleton.1 mem]
    exact anew.offers
  refine ⟨step_moves anew.sound (.load key), ?_⟩
  have started : Library.Loaded s.library s.host.disk [] s.library s.host :=
    { sound := anew.sound.library
      idle := anew.sound.idle
      faithful := .ofNothing (fun _ => by rw [anew.shaders]; rfl) fun _ => by
        rw [anew.registry]
        rfl
      known := fun _ => ⟨fun ⟨_, there⟩ => (by rw [anew.shaders] at there; cases there), nofun⟩
      waits := fun _ _ there => by rw [anew.shaders] at there; cases there
      dirty := fun dirty => by rw [anew.registry] at dirty; cases dirty }
  have loaded := step_loaded started (.load key) ok
  obtain ⟨e, there, built, definition, ⟨_, _, declares⟩, made⟩ :=
    loaded.built_declared (load_pending anew.sound key ok anew.pending) List.mem_cons_self
  exact ⟨⟨e.object, Library.built?_eq_some.2 ⟨e, there, built, rfl⟩, anew.made declares made⟩,
    fun name => (loaded.known name).trans List.mem_singleton⟩

end PaintsAnew

/-! ## A buffer lost -/

/-- A policy that refuses all textures and nothing else. -/
def refuseTextures : Nat → DeviceRequest → Option DeviceError
  | _, .texture _ => some .outOfMemory
  | _, _ => none

/-- The shader is loaded, then the device refuses all textures, and then the material is loaded. -/
def refusedLoad : List Operation :=
  [.loadShader "Paint", .world coatDisk (.stub [] []) none refuseTextures,
    .loadMaterial "coat.json" true]

/-- The material gets its buffer, and is given up for want of the white texture. -/
theorem PaintsAnew.strands {s : Session} (anew : PaintsAnew "Paint" s)
    (materials : s.library.materials = .empty) {slot : DefaultSlot} {rest : List DefaultSlot}
    (defaults : s.library.textures.defaults = slot :: rest) (missing : slot.texture = none)
    (ops : List Operation) : s.StrandsIn (refusedLoad ++ ops) := by
  obtain ⟨moves, ⟨o, built, made⟩, _⟩ := anew.loads
  obtain ⟨sameMaterials, sameTextures⟩ := moves.belongings
  have full : paintShader.bufferSize ≠ 0 := by decide +kernel
  refine .inr (.inr (.inl ⟨_, _, coat_headed, ?_, coat_read, ?_⟩))
  · show (s.step (.loadShader "Paint")).library.materials.get? "Coat" = none
    rw [sameMaterials, materials]
    rfl
  · refine (Library.furnish_bare rfl rfl built fun _ _ => rfl).mono ?_
    rintro _ _ h₁ ⟨rfl, policy, buffer, rfl, gets⟩
    refine ⟨_, rfl, rfl, gets (made ▸ full), (Attempt.ends_focus _ _ _).2 ?_⟩
    refine TextureTable.ensureDefaults_refused (sameTextures ▸ defaults) missing ?_
    rw [policy]
    exact fun _ _ => ⟨_, rfl⟩

/-- A session that has an orphan after some operations. -/
theorem exists_orphan {s : Session} (sound : s.Sound)
    (custody : Custody s.library.materials none s.host.device) {ops : List Operation}
    (spare : ∀ op ∈ ops, op.SparesBuffers) (stranded : s.StrandsIn ops) :
    ∃ buffer, (s.run ops).host.device.IsLive buffer ∧
      ¬ Owned (s.run ops).library.materials buffer := by
  have orphan := (run_leaves sound custody ops spare).noOrphan.not.2 fun both => both.2 stranded
  simp only [NoOrphan, not_forall, not_or] at orphan
  obtain ⟨buffer, live, other, _⟩ := orphan
  exact ⟨buffer, live, other⟩

/-- The device refuses the white texture after it made the buffer of a new material: no material
owns the buffer then, and a shutdown leaves one. -/
theorem refused_texture_loses_buffer :
    (∃ buffer, (paintShop.run refusedLoad).host.device.IsLive buffer ∧
      ¬ Owned (paintShop.run refusedLoad).library.materials buffer) ∧
    ∃ buffer, (paintShop.run (refusedLoad ++ [.shutdown])).host.device.IsLive buffer ∧
      ¬ Owned (paintShop.run (refusedLoad ++ [.shutdown])).library.materials buffer := by
  have started : Custody paintShop.library.materials none paintShop.host.device :=
    (start_custody ..).1
  have spare : ∀ op ∈ refusedLoad ++ [.shutdown], op.SparesBuffers := by
    simp [refusedLoad, Operation.SparesBuffers]
  have defaults : paintShop.library.textures.defaults = [⟨.d2, 16, none⟩, ⟨.cube, 17, none⟩] := by
    decide +kernel
  have strands (ops : List Operation) : paintShop.StrandsIn (refusedLoad ++ ops) :=
    paintsAnew_paintShop.strands rfl defaults rfl ops
  have first := strands []
  rw [List.append_nil] at first
  exact ⟨exists_orphan paintsAnew_paintShop.sound started
      (fun op mem => spare op (List.mem_append_left _ mem)) first,
    exists_orphan paintsAnew_paintShop.sound started spare (strands _)⟩

end Session

end SurfaceShading
