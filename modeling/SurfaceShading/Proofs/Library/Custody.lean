/-
  Custody of buffers. Every buffer that a material of the library owns is on the device, and is
  owned by this material alone (`Custody`); a buffer is an orphan that no material owns, nor one
  that is still being made. Each operation keeps custody, and leaves no orphan but where a new
  material with its buffer is given up (`StrandsFile`).
-/
import SurfaceShading.Proofs.Library.Aside
import SurfaceShading.Proofs.Library.Rules
import SurfaceShading.Proofs.Material.Ownership

namespace SurfaceShading

variable {materials materials' : OrderedMap String Material} {d d' : Device}
  {loose loose' : Option Handle}

/-! ## Owners -/

/-- One of the materials owns the buffer. -/
def Owned (materials : OrderedMap String Material) (buffer : Handle) : Prop :=
  ∃ name m, materials.get? name = some m ∧ m.buffer = some buffer

/-- Every buffer that one of the materials owns is on the device, and no other of them owns it.
There may be one more, which belongs to a material that is not kept yet. -/
structure Custody (materials : OrderedMap String Material) (loose : Option Handle) (d : Device) :
    Prop where
  sorted : materials.Sorted
  tidy : d.Tidy
  owned : ∀ {buffer}, Owned materials buffer → d.IsLive buffer
  single : ∀ {name name' m m' buffer}, materials.get? name = some m →
    materials.get? name' = some m' → m.buffer = some buffer → m'.buffer = some buffer →
      name = name'
  loose : ∀ {buffer}, loose = some buffer → d.IsLive buffer ∧ ¬ Owned materials buffer

/-- Every buffer of the device has its owner. -/
def NoOrphan (materials : OrderedMap String Material) (loose : Option Handle) (d : Device) : Prop :=
  ∀ buffer, d.IsLive buffer → Owned materials buffer ∨ loose = some buffer

/-- Custody is kept, and no buffer is an orphan afterwards iff none was before and none was made
one. -/
structure Leaves (orphaned : Prop) (materials : OrderedMap String Material)
    (loose : Option Handle) (d : Device) (materials' : OrderedMap String Material) (d' : Device) :
    Prop where
  custody : Custody materials' none d'
  noOrphan : NoOrphan materials' none d' ↔ NoOrphan materials loose d ∧ ¬ orphaned

/-- Custody is kept, and there are orphans afterwards iff there were before. -/
structure Tends (materials : OrderedMap String Material) (loose : Option Handle) (d : Device)
    (materials' : OrderedMap String Material) (loose' : Option Handle) (d' : Device) : Prop where
  custody : Custody materials' loose' d'
  noOrphan : NoOrphan materials' loose' d' ↔ NoOrphan materials loose d

namespace Tends

theorem refl (custody : Custody materials loose d) : Tends materials loose d materials loose d :=
  ⟨custody, Iff.rfl⟩

theorem trans {materials'' : OrderedMap String Material} {loose'' : Option Handle} {d'' : Device}
    (first : Tends materials loose d materials' loose' d')
    (second : Tends materials' loose' d' materials'' loose'' d'') :
    Tends materials loose d materials'' loose'' d'' :=
  ⟨second.custody, second.noOrphan.trans first.noOrphan⟩

theorem leaves {orphaned : Prop} (tends : Tends materials loose d materials' none d')
    (not : ¬ orphaned) : Leaves orphaned materials loose d materials' d' :=
  ⟨tends.custody, tends.noOrphan.trans (and_iff_left not).symm⟩

theorem onward {orphaned : Prop} {materials'' : OrderedMap String Material} {d'' : Device}
    (first : Tends materials loose d materials' loose' d')
    (second : Leaves orphaned materials' loose' d' materials'' d'') :
    Leaves orphaned materials loose d materials'' d'' :=
  ⟨second.custody, second.noOrphan.trans (and_congr_left' first.noOrphan)⟩

end Tends

theorem Leaves.congr {orphaned orphaned' : Prop}
    (leaves : Leaves orphaned materials loose d materials' d') (same : orphaned' ↔ orphaned) :
    Leaves orphaned' materials loose d materials' d' :=
  ⟨leaves.custody, leaves.noOrphan.trans (and_congr_right' (not_congr same.symm))⟩

namespace Custody

/-- The material that is not kept yet trades its buffer. -/
theorem trade (custody : Custody materials loose d) (trades : Device.Trades loose d loose' d') :
    Tends materials loose d materials loose' d' where
  custody := {
    sorted := custody.sorted
    tidy := trades.tidy custody.tidy fun _ is => (custody.loose is).1
    owned := fun {buffer} owned => (trades.live buffer).2
      (.inl ⟨custody.owned owned, fun is => (custody.loose is).2 owned⟩)
    single := custody.single
    loose := fun {buffer} is => by
      refine ⟨trades.held buffer is, fun owned => ?_⟩
      have other : loose ≠ some buffer := fun was => (custody.loose was).2 owned
      exact trades.kept custody.tidy (custody.owned owned) other is }
  noOrphan := by
    constructor
    · intro all buffer live
      by_cases is : loose = some buffer
      · exact .inr is
      · have other := trades.kept custody.tidy live is
        exact .inl ((all buffer ((trades.live buffer).2 (.inl ⟨live, is⟩))).resolve_right other)
    · intro all buffer live
      rcases (trades.live buffer).1 live with ⟨live, other⟩ | is
      · exact .inl ((all buffer live).resolve_right other)
      · exact .inr is

/-- The material is kept, with its buffer. -/
theorem keep {m : Material} (custody : Custody materials m.buffer d) (name : String)
    (new : materials.get? name = none) :
    Tends materials m.buffer d (materials.insert name m) none d := by
  have there {other : String} {m' : Material}
      (is : (materials.insert name m).get? other = some m') :
      other = name ∧ m' = m ∨ materials.get? other = some m' := by
    rw [OrderedMap.get?_insert] at is
    split at is
    · next same =>
      cases is
      exact .inl ⟨same, rfl⟩
    · exact .inr is
  have owned (buffer : Handle) : Owned (materials.insert name m) buffer ↔
      Owned materials buffer ∨ m.buffer = some buffer := by
    constructor
    · rintro ⟨other, m', is, has⟩
      rcases there is with ⟨_, rfl⟩ | is
      · exact .inr has
      · exact .inl ⟨other, m', is, has⟩
    · rintro (⟨other, m', is, has⟩ | has)
      · refine ⟨other, m', ?_, has⟩
        rw [OrderedMap.get?_insert_of_ne _ (fun same => ?_), is]
        rw [same, new] at is
        cases is
      · exact ⟨name, m, OrderedMap.get?_insert_self _ _ _, has⟩
  refine ⟨⟨custody.sorted.insert _ _, custody.tidy, fun {buffer} is => ?_, ?_,
    fun is => by cases is⟩, ?_⟩
  · rcases (owned buffer).1 is with is | is
    · exact custody.owned is
    · exact (custody.loose is).1
  · intro other other' m₁ m₂ buffer is is' has has'
    rcases there is with ⟨rfl, rfl⟩ | old <;> rcases there is' with ⟨rfl, rfl⟩ | old'
    · rfl
    · exact absurd ⟨other', m₂, old', has'⟩ (custody.loose has).2
    · exact absurd ⟨other, m₁, old, has⟩ (custody.loose has').2
    · exact custody.single old old' has has'
  · unfold NoOrphan
    simp only [owned, reduceCtorEq, or_false]

/-- A material is taken out with its buffer. -/
theorem loosen {m : Material} {name : String} (custody : Custody materials none d)
    (there : materials.get? name = some m) :
    Tends materials none d (materials.erase name) m.buffer d := by
  have left {other : String} {m' : Material} :
      (materials.erase name).get? other = some m' ↔
        other ≠ name ∧ materials.get? other = some m' := by
    rw [OrderedMap.get?_erase]
    split
    · next same => exact iff_of_false (fun is => by cases is) fun is => is.1 same
    · next other => exact (and_iff_right other).symm
  have owned (buffer : Handle) : Owned materials buffer ↔
      Owned (materials.erase name) buffer ∨ m.buffer = some buffer := by
    constructor
    · rintro ⟨other, m', is, has⟩
      by_cases same : other = name
      · rw [same, there] at is
        cases is
        exact .inr has
      · exact .inl ⟨other, m', left.2 ⟨same, is⟩, has⟩
    · rintro (⟨other, m', is, has⟩ | has)
      · exact ⟨other, m', (left.1 is).2, has⟩
      · exact ⟨name, m, there, has⟩
  refine ⟨⟨custody.sorted.erase name, custody.tidy, fun is => ?_, ?_, fun {buffer} has => ⟨?_, ?_⟩⟩,
    ?_⟩
  · exact custody.owned ((owned _).2 (.inl is))
  · exact fun is is' => custody.single (left.1 is).2 (left.1 is').2
  · exact custody.owned ((owned _).2 (.inr has))
  · rintro ⟨other, m', is, has'⟩
    exact (left.1 is).1 (custody.single (left.1 is).2 there has' has)
  · unfold NoOrphan
    simp only [owned, reduceCtorEq, or_false]

/-- A material of the library trades its buffer. -/
theorem replace {m m' : Material} {name : String} (custody : Custody materials none d)
    (there : materials.get? name = some m) (trades : Device.Trades m.buffer d m'.buffer d') :
    Tends materials none d (materials.insert name m') none d' := by
  have loosened := custody.loosen there
  have traded := loosened.custody.trade trades
  have kept := traded.custody.keep name (by rw [OrderedMap.get?_erase, if_pos rfl])
  have same : (materials.erase name).insert name m' = materials.insert name m' := by
    refine kept.custody.sorted.ext (custody.sorted.insert _ _) fun other => ?_
    rw [OrderedMap.get?_insert, OrderedMap.get?_insert, OrderedMap.get?_erase]
    split <;> rfl
  rw [same] at kept
  exact (loosened.trans traded).trans kept

theorem keepsLive {h h' : Host} (custody : Custody materials loose h.device)
    (keeps : h.KeepsLive h') : Tends materials loose h.device materials loose h'.device :=
  custody.trade (keeps.trades fun _ is => (custody.loose is).1)

/-- A material is given up, which makes an orphan of its buffer. -/
theorem abandon (custody : Custody materials loose d) :
    Leaves (loose ≠ none) materials loose d materials d where
  custody := { custody with loose := nofun }
  noOrphan := by
    cases is : loose with
    | none => simp
    | some buffer =>
      refine iff_of_false (fun all => ?_) fun both => both.2 nofun
      obtain ⟨live, notOwned⟩ := custody.loose is
      rcases all buffer live with owned | same
      · exact notOwned owned
      · cases same

end Custody

/-! ## Names in files -/

namespace MaterialFile

theorem ofFields?_name {name shader : Json} {parameters textures : List Json}
    {file : MaterialFile} (read : ofFields? name shader parameters textures = some file) :
    name.text? = some file.name := by
  unfold ofFields? at read
  simp only [Option.bind_eq_bind, Option.bind_eq_some_iff] at read
  obtain ⟨text, is, _, _, _, _, _, _, made⟩ := read
  cases made
  exact is

/-- A header and a file of one text name the same material. -/
theorem ofJson?_name {v : Json} {file : MaterialFile} {header : MaterialHeader}
    (read : ofJson? v = some file) (headed : MaterialHeader.ofJson? v = some header) :
    file.name = header.name := by
  have same {name shader : Json} {parameters textures : List Json}
      (read : ofFields? name shader parameters textures = some file)
      (headed : (name.text?.bind fun name => shader.text?.bind fun shader =>
        some (MaterialHeader.mk name shader)) = some header) : file.name = header.name := by
    simp only [ofFields?_name read, Option.bind_some, Option.bind_eq_some_iff] at headed
    obtain ⟨_, _, made⟩ := headed
    cases made
    rfl
  unfold MaterialHeader.ofJson? at headed
  simp only [Option.bind_eq_bind] at headed
  split at headed
  · exact same read headed
  · cases headed
  · next v array other =>
    rw [ofJson?] at read
    · obtain ⟨members, are, headed⟩ := Option.bind_eq_some_iff.1 headed
      simp only [Option.bind_eq_bind, are, Option.bind_some] at read
      split at headed
      · next is is' =>
        rw [is, is'] at read
        exact same read headed
      · cases headed
    · exact fun _ _ _ is => other _ is

/-- The header of a file names the material of the file. -/
theorem load_name {disk : Disk} {path : String} {file : MaterialFile}
    {header : MaterialHeader} (headed : MaterialHeader.load disk path = .ok header)
    (read : load disk path = .ok file) : file.name = header.name := by
  unfold MaterialHeader.load MaterialHeader.parse? at headed
  unfold load parse? at read
  cases there : disk.readText path with
  | error e => rw [there] at read; cases read
  | ok text =>
    simp only [there] at read headed
    cases parsed : Json.parse? text with
    | none => rw [parsed] at read; cases read
    | some v =>
      simp only [parsed, Option.bind_some] at read headed
      split at read
      · next file' is =>
        split at headed
        · next header' is' =>
          cases read
          cases headed
          exact ofJson?_name is is'
        · cases headed
      · cases read

end MaterialFile

/-! ## Shaders of materials -/

namespace Library

variable {l : Library} {h : Host}

/-- Loading a shader concerns neither materials nor textures nor buffers. -/
theorem loadShader_belongings (name : String) (sound : l.Sound h.device)
    (idle : l.registry.state = .idle) :
    Attempt.Ends (loadShader name) l h fun _ l' h' =>
      l'.materials = l.materials ∧ l'.textures = l.textures ∧ h.Spares h' := by
  refine ((loadShader_ends name l h sound idle).and (loadShader_keeps name l h)).mono ?_
  rintro r l' h' ⟨⟨_, _, _, rfl, _⟩ | ⟨_, loaded⟩, spares⟩
  · exact ⟨rfl, rfl, spares⟩
  · exact ⟨loaded.moves.belongings.1, loaded.moves.belongings.2, spares⟩

/-! ## New materials -/

/-- A new material with its buffer, if it gets one, is kept. -/
theorem createMaterial_tends (name shader : String) (sound : l.Sound h.device)
    (idle : l.registry.state = .idle) (custody : Custody l.materials none h.device) :
    Attempt.Ends (createMaterial name shader) l h fun _ l' h' =>
      Tends l.materials none h.device l'.materials none h'.device := by
  refine createMaterial_rule (fun _ _ => .refl custody)
    (fun _ => loadShader_belongings shader sound idle) ?_ ?_
  · rintro e l₁ h₁ ⟨materials, _, spares⟩
    rw [materials]
    exact custody.keepsLive spares.keepsLive
  · rintro object l₁ h₁ new ⟨materials, _, spares⟩
    have spared := custody.keepsLive spares.keepsLive
    refine (Material.update_equips (Material.holds_new name object.id object.shader h₁.device)
      spared.custody.tidy).mono fun r m h₂ equips => ?_
    have traded := spared.custody.trade equips.trades
    cases r with
    | ok _ =>
      have kept := traded.custody.keep m.name (by rw [equips.name]; exact new)
      show Tends _ _ _ (l₁.materials.insert m.name m) _ _
      rw [materials]
      exact (spared.trans traded).trans kept
    | error e =>
      rw [(equips.failed e rfl).2.1] at traded
      show Tends _ _ _ l₁.materials _ _
      rw [materials]
      exact spared.trans traded

/-- What is known of the material of a file that has its buffer. -/
structure Furnished (file : MaterialFile) (l : Library) (h : Host) (m : Material) (h' : Host) :
    Prop where
  name : m.name = file.name
  full : m.shader.bufferSize ≠ 0 → m.buffer ≠ none
  tends : Tends l.materials none h.device l.materials m.buffer h'.device

theorem furnish_ends (file : MaterialFile) (sound : l.Sound h.device)
    (idle : l.registry.state = .idle) (custody : Custody l.materials none h.device) :
    Attempt.Ends (furnish file) l h fun r l' h' => l'.materials = l.materials ∧
      (∀ m, r = .ok m → Furnished file l h m h') ∧
      (∀ e, r = .error e → Tends l.materials none h.device l.materials none h'.device) := by
  refine furnish_rule (loadShader_belongings file.shader sound idle) ?_ ?_
  · rintro e l₁ h₁ ⟨materials, _, spares⟩
    exact ⟨materials, nofun, fun _ _ => custody.keepsLive spares.keepsLive⟩
  · rintro object l₁ h₁ ⟨materials, _, spares⟩
    have spared := custody.keepsLive spares.keepsLive
    refine (Material.applyFile_createBuffer_equips file (Material.holds_new file.name
      object.id object.shader h₁.device) spared.custody.tidy).mono fun r m h₂ equips => ?_
    have traded := spared.trans (spared.custody.trade equips.trades)
    refine ⟨materials, fun m' is => ?_, fun e is => ?_⟩
    · cases r with
      | error e => cases is
      | ok _ =>
        cases is
        exact ⟨equips.name, fun bytes => equips.done rfl (equips.shader ▸ bytes), traded⟩
    · cases r with
      | ok _ => cases is
      | error e' =>
        rw [(equips.failed e' rfl).2.1] at traded
        exact traded

/-- Making the default textures concerns neither materials nor buffers. -/
theorem ensureDefaultTextures_spares :
    Attempt.Ends ensureDefaultTextures l h fun _ l' h' =>
      l'.materials = l.materials ∧ h.Spares h' :=
  (Attempt.ends_focus _ _ _).2
    ((TextureTable.ensureDefaults_keeps.spares l.textures h).mono fun _ _ _ spares => ⟨rfl, spares⟩)

/-- The material of a file that sets nothing gets its buffer, if its shader was built and the
device makes the buffer. -/
theorem furnish_bare {file : MaterialFile} (values : file.parameters = .empty)
    (paths : file.textures = .empty) {o : ShaderObject} (built : l.built? file.shader = some o)
    (makes : ∀ n descriptor, h.device.policy n (.buffer descriptor) = none) :
    Attempt.Ends (furnish file) l h fun r l' h' => l' = l ∧ h'.device.policy = h.device.policy ∧
      ∃ buffer, r = .ok { Material.new file.name o.id o.shader with buffer := buffer } ∧
        (o.shader.bufferSize ≠ 0 → buffer ≠ none) := by
  have cached : Attempt.Ends (loadShader file.shader) l h fun r l' h' =>
      r = .ok o ∧ l' = l ∧ h'.device.policy = h.device.policy := by
    unfold loadShader
    simp only [Attempt.ends_bind, Attempt.ends_get, Attempt.after_ok, built, Attempt.ends_liftHost]
    exact (report_keeps _ h).mono fun _ _ spares => ⟨rfl, rfl, spares.device.policy⟩
  refine furnish_rule cached (fun _ _ _ ⟨is, _⟩ => nomatch is) ?_
  rintro _ _ h₁ ⟨ok, rfl, policy⟩
  cases ok
  rw [← policy] at makes ⊢
  refine (Material.applyFile_createBuffer_makes values paths makes).mono ?_
  rintro _ _ h₂ ⟨rfl, policy', buffer, rfl, full⟩
  exact ⟨rfl, policy', buffer, rfl, full⟩

/-- The material has its buffer, and the device refuses a default texture. -/
def Strands (commands : Bool) (m : Material) (l : Library) (h : Host) : Prop :=
  commands = true ∧ m.buffer ≠ none ∧
    Attempt.Ends ensureDefaultTextures l h fun r _ _ => ∃ e, r = .error e

/-- The material of a file is given up with its buffer if the device refuses a default texture;
nothing after that can fail. -/
theorem finishFile_leaves (file : MaterialFile) (commands : Bool) {m : Material}
    (custody : Custody l.materials m.buffer h.device) (new : l.materials.get? m.name = none)
    (full : m.shader.bufferSize ≠ 0 → m.buffer ≠ none) :
    Attempt.Ends (finishFile file commands m) l h fun _ l' h' =>
      Leaves (Strands commands m l h) l.materials m.buffer h.device l'.materials h'.device := by
  have holds {h₁ : Host} (custody : Custody l.materials m.buffer h₁.device) :
      m.Holds h₁.device := fun _ is => (custody.loose is).1
  refine finishFile_rule
    (S := fun r l₁ h₁ => (Attempt.Ends ensureDefaultTextures l h (fun r _ _ =>
      ∃ e, r = .error e) ↔ ∃ e, r = .error e) ∧ l₁.materials = l.materials ∧ h.Spares h₁)
    (Q := fun r m' l₁ h₁ => ¬ Strands commands m l h ∧ r = .ok () ∧ l₁.materials = l.materials ∧
      m'.name = m.name ∧ Tends l.materials m.buffer h.device l.materials m'.buffer h₁.device)
    ?_ ?_ ?_ ?_ ?_ ?_
  · exact fun _ => (Attempt.Ends.here ensureDefaultTextures l h fun r _ _ =>
      ∃ e, r = .error e).and ensureDefaultTextures_spares
  · rintro e l₁ h₁ commanded ⟨refused, materials, spares⟩
    have spared := custody.keepsLive spares.keepsLive
    rw [materials]
    refine spared.onward (spared.custody.abandon.congr ?_)
    exact ⟨fun stranded => stranded.2.1, fun held => ⟨commanded, held, refused.2 ⟨e, rfl⟩⟩⟩
  · rintro l₁ h₁ commanded ⟨made, materials, spares⟩
    have spared := custody.keepsLive spares.keepsLive
    refine (Material.loadTextures_equips (holds spared.custody) spared.custody.tidy
      l₁.textures).mono fun r s h₂ equips => ?_
    exact ⟨fun stranded => (nomatch made.1 stranded.2.2), equips.succeeds full, materials,
      equips.name, spared.trans (spared.custody.trade equips.trades)⟩
  · intro uncommanded
    refine (Material.update_equips (holds custody) custody.tidy).mono fun r m' h₁ equips => ?_
    exact ⟨fun stranded => (nomatch uncommanded.symm.trans stranded.1), equips.succeeds full, rfl,
      equips.name, custody.trade equips.trades⟩
  · rintro _ _ _ _ ⟨_, is, _⟩
    cases is
  · rintro m' l₁ h₁ h₂ ⟨unstranded, _, materials, name, tends⟩ spares
    have spared := tends.trans (tends.custody.keepsLive spares.keepsLive)
    have kept := spared.trans (spared.custody.keep m'.name (name ▸ new))
    show Leaves _ _ _ _ (l₁.materials.insert m'.name m') _
    rw [materials]
    exact kept.leaves unstranded

/-- A new material of a file is given up with its buffer. -/
def StrandsFile (path : String) (commands : Bool) (l : Library) (h : Host) : Prop :=
  ∃ header file, MaterialHeader.load h.disk path = .ok header ∧
    l.materials.get? header.name = none ∧ MaterialFile.load h.disk path = .ok file ∧
    Attempt.Ends (furnish file) l h fun r l' h' => ∃ m, r = .ok m ∧ Strands commands m l' h'

theorem ofFile_leaves (file : MaterialFile) (commands : Bool) (sound : l.Sound h.device)
    (idle : l.registry.state = .idle) (custody : Custody l.materials none h.device)
    (new : l.materials.get? file.name = none) :
    Attempt.Ends (ofFile file commands) l h fun _ l' h' =>
      Leaves (Attempt.Ends (furnish file) l h fun r l₁ h₁ =>
          ∃ m, r = .ok m ∧ Strands commands m l₁ h₁)
        l.materials none h.device l'.materials h'.device := by
  rw [ofFile_eq]
  refine ((Attempt.Ends.here (furnish file) l h fun r l₁ h₁ =>
    ∃ m, r = .ok m ∧ Strands commands m l₁ h₁).and
      (furnish_ends file sound idle custody)).bind ?_ ?_
  · rintro m l₁ h₁ ⟨stranded, materials, furnished, -⟩
    obtain ⟨name, full, tends⟩ := furnished m rfl
    have new₁ : l₁.materials.get? m.name = none := by rw [materials, name]; exact new
    have custody₁ := tends.custody
    rw [← materials] at custody₁
    refine (finishFile_leaves file commands custody₁ new₁ full).mono fun _ l' h' leaves => ?_
    rw [materials] at leaves
    refine tends.onward (leaves.congr (stranded.trans ⟨?_, fun strands => ⟨m, rfl, strands⟩⟩))
    rintro ⟨m', same, strands⟩
    cases same
    exact strands
  · rintro e l₁ h₁ ⟨stranded, materials, -, failed⟩
    rw [materials]
    refine (failed e rfl).leaves (mt stranded.1 ?_)
    rintro ⟨m, is, _⟩
    cases is

theorem loadMaterial_leaves (path : String) (commands : Bool) (sound : l.Sound h.device)
    (idle : l.registry.state = .idle) (custody : Custody l.materials none h.device) :
    Attempt.Ends (loadMaterial path commands) l h fun _ l' h' =>
      Leaves (StrandsFile path commands l h) l.materials none h.device l'.materials h'.device := by
  refine loadMaterial_rule ?_ ?_ ?_ ?_
  · intro e headless
    refine (Tends.refl custody).leaves ?_
    rintro ⟨_, _, is, _⟩
    cases headless.symm.trans is
  · intro header m h' headed there spares
    refine (custody.keepsLive spares.keepsLive).leaves ?_
    rintro ⟨_, _, is, new, _⟩
    cases headed.symm.trans is
    cases there.symm.trans new
  · intro header e _ _ unread
    refine (Tends.refl custody).leaves ?_
    rintro ⟨_, _, _, _, is, _⟩
    cases unread.symm.trans is
  · intro header file headed there read
    have new : l.materials.get? file.name = none := by
      rw [MaterialFile.load_name headed read]
      exact there
    refine (ofFile_leaves file commands sound idle custody new).mono fun _ _ _ leaves =>
      leaves.congr ⟨?_, fun strands => ⟨header, file, headed, there, read, strands⟩⟩
    rintro ⟨_, _, _, _, is, strands⟩
    cases read.symm.trans is
    exact strands

/-! ## Materials of the library -/

/-- Resolving its textures, a material of the library may get its buffer. -/
theorem resolveMaterial_tends {name : String} {m : Material}
    (custody : Custody l.materials none h.device) (there : l.materials.get? name = some m) :
    Attempt.Ends (resolveMaterial name m) l h fun _ l' h' =>
      Tends l.materials none h.device l'.materials none h'.device := by
  have holds : m.Holds h.device := fun _ is => custody.owned ⟨name, m, there, is⟩
  have resolved : Attempt.Ends Material.loadTextures (m, l.textures) h fun _ s' h' =>
      Device.Trades m.buffer h.device s'.1.buffer h'.device :=
    (Material.loadTextures_equips holds custody.tidy l.textures).mono fun _ _ _ equips =>
      equips.trades
  exact custody.replace there resolved

theorem resolvePending_tends (custody : Custody l.materials none h.device) :
    Attempt.Ends resolvePending l h fun _ l' h' =>
      Tends l.materials none h.device l'.materials none h'.device := by
  refine resolvePending_inOrder (P := fun l' h' =>
    Tends l.materials none h.device l'.materials none h'.device) custody.sorted ?_ ?_
  · refine ensureDefaultTextures_spares.mono fun _ l₁ h₁ ⟨materials, spares⟩ => ?_
    rw [materials]
    exact custody.keepsLive spares.keepsLive
  · exact fun there tends => (resolveMaterial_tends tends.custody there).mono
      fun _ _ _ => tends.trans

theorem createDefaults_tends (sound : l.Sound h.device) (idle : l.registry.state = .idle)
    (custody : Custody l.materials none h.device) :
    Attempt.Ends createDefaults l h fun _ l' h' =>
      Tends l.materials none h.device l'.materials none h'.device := by
  let P (l' : Library) (h' : Host) : Prop :=
    Aside l h l' h' ∧ Tends l.materials none h.device l'.materials none h'.device
  have start : P l h := ⟨.refl l h, .refl custody⟩
  refine (createDefaults_preserves sound.shaders_sorted start ?_).mono fun _ _ _ => And.right
  rintro l₁ h₁ shader o built ⟨aside, tends⟩
  refine ((createMaterial_tends _ shader (aside.sound sound) (aside.idle idle)
    tends.custody).and (createMaterial_aside _ built)).mono ?_
  exact fun _ _ _ ⟨later, beside⟩ => ⟨aside.trans beside, tends.trans later⟩

theorem bindMaterial_tends {name : String} {m : Material}
    (custody : Custody l.materials none h.device) (there : l.materials.get? name = some m) :
    Attempt.Ends (bindMaterial name m) l h fun _ l' h' =>
      Tends l.materials none h.device l'.materials none h'.device := by
  have holds : m.Holds h.device := fun _ is => custody.owned ⟨name, m, there, is⟩
  exact ends_bindMaterial.2 ((Material.bind_trades l.config.rootSlot holds custody.tidy).mono
    fun _ _ _ => custody.replace there)

theorem saveMaterial_tends (name path : String) (custody : Custody l.materials none h.device) :
    Attempt.Ends (saveMaterial name path) l h fun _ l' h' =>
      Tends l.materials none h.device l'.materials none h'.device :=
  saveMaterial_rule (fun m _ => custody.keepsLive (m.save_keepsLive path h))
    fun _ => .refl custody

/-! ## Shutdown -/

/-- Releasing materials destroys their buffers and no other. -/
theorem releaseAll_ends (materials : List Material) (l : Library) (h : Host) :
    Work.Ends (materials.forM fun m => do
      let _ ← liftM (Material.release.run m) : Work Library PUnit) l h fun _ l' h' =>
        l' = l ∧ ∀ buffer, h'.device.IsLive buffer ↔
          h.device.IsLive buffer ∧ ∀ m ∈ materials, m.buffer ≠ some buffer := by
  induction materials generalizing h with
  | nil => exact ⟨rfl, fun buffer => by simp; rfl⟩
  | cons m rest ih =>
    have released : Work.Ends (do
        let _ ← liftM (Material.release.run m) : Work Library PUnit) l h fun _ l' h' =>
          l' = l ∧ ∀ buffer, h'.device.IsLive buffer ↔
            h.device.IsLive buffer ∧ m.buffer ≠ some buffer := ⟨rfl, Material.release_live m h⟩
    refine (Work.ends_bind _ _).2 (released.mono ?_)
    rintro _ l₁ h₁ ⟨rfl, first⟩
    refine (ih h₁).mono ?_
    rintro _ l₂ h₂ ⟨rfl, later⟩
    refine ⟨rfl, fun buffer => ?_⟩
    rw [later, first, List.forall_mem_cons, and_assoc]

/-- A shutdown forgets all materials, and destroys the buffers that they own. -/
theorem shutdown_tends (custody : Custody l.materials none h.device) :
    Work.Ends shutdown l h fun _ l' h' => l'.materials = .empty ∧
      Tends l.materials none h.device l'.materials none h'.device := by
  have destroyed : Work.Ends shutdown l h fun _ l' h' => l'.materials = .empty ∧
      ∀ buffer, h'.device.IsLive buffer ↔
        h.device.IsLive buffer ∧ ∀ m ∈ l.materials.values, m.buffer ≠ some buffer := by
    unfold shutdown
    rw [Work.ends_bind, Work.ends_get, Work.ends_bind]
    refine (releaseAll_ends l.materials.values l h).mono ?_
    rintro _ l₁ h₁ ⟨rfl, released⟩
    refine (Work.ends_bind _ _).2 ((Work.ends_lift _).2 ((report_keeps _ h₁).mono ?_))
    intro _ h₂ reported
    refine (Work.ends_bind _ _).2 ((Work.ends_modify _).2 ((Work.ends_focus _ _ _).2 ?_))
    refine (TextureTable.clear_keeps.spares _ h₂).mono fun _ _ h₃ cleared => ⟨rfl, fun buffer => ?_⟩
    rw [← released, cleared.keepsLive.live, reported.keepsLive.live]
  refine (destroyed.and (shutdown_keeps l h)).mono ?_
  rintro _ l' h' ⟨⟨materials, live⟩, builds⟩
  have unowned (buffer : Handle) : ¬ Owned l'.materials buffer := by
    rw [materials]
    exact fun ⟨_, _, is, _⟩ => nomatch is
  have owned (buffer : Handle) : Owned l.materials buffer ↔
      ∃ m ∈ l.materials.values, m.buffer = some buffer := by
    constructor
    · rintro ⟨name, m, is, has⟩
      exact ⟨m, List.mem_map_of_mem (OrderedMap.mem_of_get? is), has⟩
    · rintro ⟨m, mem, has⟩
      obtain ⟨⟨name, _⟩, entry, rfl⟩ := List.mem_map.1 mem
      exact ⟨name, _, custody.sorted.get?_eq_some_iff.2 entry, has⟩
  refine ⟨materials, ⟨?_, fun buffer alive => ?_, fun is => absurd is (unowned _), ?_, nofun⟩, ?_⟩
  · rw [materials]
    exact OrderedMap.sorted_empty
  · exact Nat.le_trans (custody.tidy buffer ((live buffer).1 alive).1) builds.device.handles
  · rw [materials]
    exact fun is => nomatch is
  · constructor
    · intro all buffer alive
      refine .inl (Classical.byContradiction fun other => ?_)
      have spared := (live buffer).2 ⟨alive, fun m mem has =>
        other ((owned buffer).2 ⟨m, mem, has⟩)⟩
      exact (all buffer spared).elim (unowned buffer) nofun
    · intro all buffer alive
      obtain ⟨before, other⟩ := (live buffer).1 alive
      obtain ⟨m, mem, has⟩ := (owned buffer).1 ((all buffer before).resolve_right nofun)
      exact absurd has (other m mem)

end Library

end SurfaceShading
