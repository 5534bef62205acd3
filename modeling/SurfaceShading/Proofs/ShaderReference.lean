/-
  The shader that the file of a material names. A file says the name that the text of the shader
  declares, and the library has the shader under the name that was asked for. So the name in the
  file leads back to the shader object of the material if the two names are one, and only then
  (`Session.reference_resolves_iff`). A text that is registered under another name than it
  declares makes materials whose files name no shader of the library
  (`Session.alias_unresolved`).
-/
import SurfaceShading.Proofs.Bookkeeping

namespace SurfaceShading

namespace Library

variable {l : Library} {h : Host}

/-- A shader that is not known and has no text is not loaded. -/
theorem loadShader_missing {name : String} {e : SourceError} (unknown : l.shaders.get? name = none)
    (missing : l.sources.read h.disk name = .error e) :
    Attempt.Ends (loadShader name) l h fun r l' _ => r = .error (.ofSource e) ∧ l' = l := by
  have unbuilt : l.built? name = none := by rw [built?, unknown]; rfl
  have absent : l.shader? name = none := by rw [shader?, unknown]; rfl
  simp only [loadShader, loadNew, ensureShader, readDefinition, Attempt.ends_bind,
    Attempt.ends_get, Attempt.after_ok, unbuilt, absent, Option.isNone_none, if_true,
    Attempt.ends_getHost, missing, Attempt.ends_throw, Attempt.after_error, and_self]

/-- A new material of a shader that was built is made and kept, if the device makes its buffer. -/
theorem createMaterial_kept {name shader : String} {o : ShaderObject}
    (new : l.materials.get? name = none) (built : l.built? shader = some o)
    (makes : ∀ n descriptor, h.device.policy n (.buffer descriptor) = none) :
    Attempt.Ends (createMaterial name shader) l h fun _ l' _ => ∃ m, m.shader = o.shader ∧
      l' = { l with materials := l.materials.insert name m } := by
  have loaded : Attempt.Ends (loadShader shader) l h fun r l₁ h₁ =>
      r = .ok o ∧ l₁ = l ∧ h₁.device.policy = h.device.policy := by
    unfold loadShader
    simp only [Attempt.ends_bind, Attempt.ends_get, Attempt.after_ok, built, Attempt.ends_liftHost]
    exact (report_keeps _ h).mono fun _ _ spares => ⟨rfl, rfl, spares.device.policy⟩
  refine createMaterial_rule ?_ (fun _ => loaded) ?_ ?_
  · intro m there
    cases new.symm.trans there
  · rintro e l₁ h₁ ⟨failed, _⟩
    cases failed
  · rintro _ l₁ h₁ _ ⟨ok, rfl, policy⟩
    cases ok
    rw [← policy] at makes
    refine ((Material.update_ok makes).and (Material.update_becomes _ h₁)).mono ?_
    rintro _ m h₂ ⟨rfl, becomes⟩
    refine ⟨m, becomes.shader, ?_⟩
    rw [becomes.name]
    rfl

end Library

namespace Session

open Library

variable {s : Session} {m : Material} {key : String}

/-- The shader that the file of a material names is in the library, and loading it gives the
object that the material is of. -/
def Resolves (s : Session) (m : Material) : Prop :=
  (∃ o, s.library.shader? m.toFile.shader = some o) ∧
    Attempt.Ends (loadShader m.toFile.shader) s.library s.host fun r _ _ =>
      ∃ o, r = .ok o ∧ o.id = m.object ∧ o.shader = m.shader

/-- A material that was made for the shader of a name resolves iff its shader declares that
name. No other name leads to the object, since no two objects have one number. -/
theorem resolves_iff (sound : s.Sound) (numbered : s.library.Numbered)
    (uses : s.library.Uses m key) : s.Resolves m ↔ m.toFile.shader = key := by
  constructor
  · rintro ⟨_, loads⟩
    obtain ⟨⟨o, ok, id, _⟩, moves, built⟩ :=
      loads.and (loadShader_builds m.toFile.shader sound.library sound.idle)
    obtain ⟨e, there, _, rfl⟩ := built?_eq_some.1 (built o ok)
    obtain ⟨o₀, built₀, id₀, _⟩ := uses
    obtain ⟨e₀, there₀, _, rfl⟩ := built?_eq_some.1 built₀
    obtain ⟨e₁, there₁, id₁, _⟩ := moves.entry there₀
    exact (moves.numbered numbered).distinct there there₁ (id.trans (id₁.trans id₀).symm)
  · rintro rfl
    obtain ⟨o, built, id, shader⟩ := uses
    obtain ⟨e, there, _, rfl⟩ := built?_eq_some.1 built
    refine ⟨⟨e.object, shader?_eq_some.2 ⟨e, there, rfl⟩⟩,
      (loadShader_ends m.toFile.shader s.library s.host sound.library sound.idle).mono ?_⟩
    rintro _ l' h' (⟨o, built', rfl, _⟩ | ⟨unbuilt, _⟩)
    · cases built.symm.trans built'
      exact ⟨e.object, rfl, id, shader⟩
    · cases built.symm.trans unbuilt

/-- A file that is loaded makes a material of the shader that it names. -/
theorem loadMaterial_uses (sound : s.Sound) {path : String} {commands : Bool}
    {file : MaterialFile} (read : MaterialFile.load s.host.disk path = .ok file)
    (new : s.library.materials.get? file.name = none)
    (ok : (s.perform (.loadMaterial path commands)).1 = .ok ()) :
    let l' := (s.step (.loadMaterial path commands)).library
    KeepsShaders s.library l' ∧
      ∃ m', l'.materials.get? file.name = some m' ∧ l'.Uses m' file.shader := by
  refine (s.ends_perform (.loadMaterial path commands)).1 (Attempt.Ends.done_of_ok
    (P := fun l' _ => KeepsShaders s.library l' ∧
      ∃ m', l'.materials.get? file.name = some m' ∧ l'.Uses m' file.shader)
    ((loadMaterial_grows path commands sound.library sound.idle).mono ?_)) ok
  rintro _ l' h' ⟨grows, kept⟩ ⟨m', rfl⟩
  have there := kept m' file rfl read
  obtain ⟨_, key, ⟨file', read', _, rfl⟩, uses⟩ := grows.made new there
  cases read.symm.trans read'
  exact ⟨grows.shaders, m', there, uses⟩

/-- **Which references resolve.** After any operations of a session, whatever the device refused,
each material was made for the shader of some name. The shader that its file names is in the
library and is the one that it is of, iff the text of its shader declares that very name. If so,
each file that names the shader and a new material loads against the same shader object, if
loading it does not fail. -/
theorem reference_resolves_iff (config : Config) (texts : OrderedMap String String)
    (loader : Loader) (disk : Disk) (ops : List Operation)
    (keep : ∀ op ∈ ops, op.KeepsOrigins) :
    let s := start config texts loader disk
    let s' := s.run ops
    ∀ name m, s'.library.materials.get? name = some m →
      (∃ key, s.MadeIn ops name key) ∧ ∀ key, s.MadeIn ops name key →
        (s'.Resolves m ↔ m.shader.name = key) ∧
        (m.shader.name = key → ∀ path commands file,
          MaterialFile.load s'.host.disk path = .ok file → file.shader = m.toFile.shader →
          s'.library.materials.get? file.name = none →
          (s'.perform (.loadMaterial path commands)).1 = .ok () →
          ∃ m', (s'.step (.loadMaterial path commands)).library.materials.get? file.name = some m' ∧
            m'.object = m.object ∧ m'.shader = m.shader) := by
  intro s s' name m there
  have start := start_sound config texts loader disk
  have orderly := start_inOrder config texts loader disk
  have sound : s'.Sound := run_sound start ops
  have order : s'.library.InOrder := run_inOrder start orderly ops keep
  have made : ∃ key, s.MadeIn ops name key :=
    (made_or_there start orderly ops keep there).resolve_left fun ⟨_, is, _⟩ => nomatch is
  refine ⟨made, fun key made => ?_⟩
  obtain ⟨m₁, there₁, uses⟩ := made.uses start orderly keep
  cases there.symm.trans there₁
  refine ⟨resolves_iff sound order.numbered uses, ?_⟩
  rintro rfl path commands file read same new ok
  obtain ⟨keeps, m', there', uses'⟩ := loadMaterial_uses sound read new ok
  obtain ⟨o, built, object, shader⟩ := uses.keep keeps
  obtain ⟨o', built', object', shader'⟩ := same ▸ uses'
  cases built.symm.trans built'
  exact ⟨m', there', object'.symm.trans object, shader'.symm.trans shader⟩

/-! ## One shader under two names -/

/-- The shader is loaded under a name and a material is made for it; then there is the disk. -/
def coating (key : String) : List Operation :=
  [.loadShader key, .createMaterial "Base" key, .world coatDisk (.stub [] []) none Device.acceptAll]

theorem coating_keep (key : String) : ∀ op ∈ coating key, op.KeepsOrigins := by
  simp [coating, Operation.KeepsOrigins]

/-- The material of the shader is there, and no other shader is. -/
structure Coated (key : String) (s : Session) (m : Material) : Prop where
  made : s.MadeIn (coating key) "Base" key
  materials : (s.run (coating key)).library.materials = OrderedMap.empty.insert "Base" m
  shader : m.shader = paintShader
  built : ∃ o, (s.run (coating key)).library.built? key = some o
  others : ∀ name, name ≠ key → (s.run (coating key)).library.shaders.get? name = none
  sources : (s.run (coating key)).library.sources = s.library.sources

theorem Coated.there (coated : Coated key s m) :
    (s.run (coating key)).library.materials.get? "Base" = some m := by
  rw [coated.materials]
  exact OrderedMap.get?_insert_self _ _ _

theorem PaintsAnew.coated (anew : PaintsAnew key s) (materials : s.library.materials = .empty) :
    ∃ m, Coated key s m := by
  obtain ⟨moves, ⟨o, built, same⟩, known⟩ := anew.loads
  have none : (s.step (.loadShader key)).library.materials = .empty :=
    moves.belongings.1.trans materials
  have new : (s.step (.loadShader key)).library.materials.get? "Base" = Option.none := by
    rw [none]
    rfl
  have makes : ∀ n descriptor,
      (s.step (.loadShader key)).host.device.policy n (.buffer descriptor) = Option.none := by
    rw [moves.builds.device.policy, anew.policy]
    exact fun _ _ => rfl
  obtain ⟨m, shader, kept⟩ :=
    ((s.step (.loadShader key)).ends_perform (.createMaterial "Base" key)).1
      (.done (createMaterial_kept new built makes))
  have last : (s.run (coating key)).library =
      ((s.step (.loadShader key)).step (.createMaterial "Base" key)).library := rfl
  have whole := last.trans kept
  have there : ((s.step (.loadShader key)).step (.createMaterial "Base" key)).library.materials.get?
      "Base" = some m :=
    (congrArg (fun l : Library => l.materials.get? "Base") kept).trans
      (OrderedMap.get?_insert_self _ _ _)
  refine ⟨m, .inr (.inl ⟨⟨new, ⟨m, there⟩, rfl, rfl⟩, by simp⟩), ?_, shader.trans same, ⟨o, ?_⟩,
    fun name ne => ?_, ?_⟩
  · rw [whole, none]
  · rw [whole]
    exact built
  · rw [whole]
    cases is : (s.step (.loadShader key)).library.shaders.get? name with
    | none => rfl
    | some e => exact absurd ((known name).1 ⟨e, is⟩) ne
  · rw [whole]
    exact moves.settings.2

/-- A file of the same shader is loaded after that. -/
theorem Coated.loads (coated : Coated "Paint" s m) :
    let s' := s.run (coating "Paint")
    MaterialFile.load s'.host.disk "coat.json" = .ok ⟨"Coat", "Paint", .empty, .empty⟩ ∧
      s'.library.materials.get? "Coat" = none ∧
      (s'.perform (.loadMaterial "coat.json" true)).1 = .ok () := by
  intro s'
  have new : s'.library.materials.get? "Coat" = none := by
    rw [coated.materials, OrderedMap.get?_insert_of_ne _ (by decide)]
    rfl
  obtain ⟨o, built⟩ := coated.built
  have made (h : Host) (policy : h.device.policy = s'.host.device.policy) :
      Attempt.Ends TextureTable.ensureDefaults s'.library.textures h fun r _ _ =>
        r = .ok () ∧ True :=
    (TextureTable.ensureDefaults_accepted (by rw [policy]; exact fun _ _ => rfl)).mono
      fun _ _ _ ok => ⟨ok, trivial⟩
  have loaded : Attempt.Ends (Operation.loadMaterial "coat.json" true).attempt s'.library s'.host
      fun r _ _ => r = .ok () :=
    (loadMaterial_nothing (P := fun _ => True) coat_headed new coat_read rfl rfl built
      (fun _ _ => rfl) made).bind (fun _ _ _ _ => rfl) fun _ _ _ ⟨⟨_, is⟩, _⟩ => nomatch is
  exact ⟨coat_read, new, (s'.ends_perform _).1 loaded⟩

/-- Under the name that it declares the shader is found again, and what is loaded from a file
that names it is of the same object. -/
theorem paint_resolves :
    (∀ op ∈ coating "Paint", op.KeepsOrigins) ∧
    let s' := paintShop.run (coating "Paint")
    ∃ m, s'.library.materials.get? "Base" = some m ∧ m.shader.name = "Paint" ∧ s'.Resolves m ∧
      (s'.perform (.loadMaterial "coat.json" true)).1 = .ok () ∧
      ∃ m', (s'.step (.loadMaterial "coat.json" true)).library.materials.get? "Coat" = some m' ∧
        m'.object = m.object ∧ m'.shader = m.shader := by
  obtain ⟨m, coated⟩ := paintsAnew_paintShop.coated rfl
  have declared : m.shader.name = "Paint" := by
    rw [coated.shader]
    rfl
  have resolves := reference_resolves_iff .standard (OrderedMap.empty.insert "Paint" paintText)
    (.stub [] []) coatDisk (coating "Paint") (coating_keep "Paint")
  rw [← paintShop] at resolves
  obtain ⟨_, each⟩ := resolves "Base" m coated.there
  obtain ⟨found, reloads⟩ := each "Paint" coated.made
  obtain ⟨read, new, ok⟩ := coated.loads
  exact ⟨coating_keep "Paint", m, coated.there, declared, found.2 declared, ok,
    reloads declared "coat.json" true _ read declared.symm new ok⟩

/-- A session that has the text under another name than it declares. -/
def aliasShop : Session :=
  start .standard (OrderedMap.empty.insert "Alias" paintText) (.stub [] []) .empty

theorem paintsAnew_aliasShop : PaintsAnew "Alias" aliasShop where
  sound := start_sound ..
  config := rfl
  other := by decide
  sources := rfl
  shaders := rfl
  registry := rfl
  pending := rfl
  policy := rfl
  rejected := rfl

theorem PaintsAnew.unresolved (anew : PaintsAnew key s)
    (materials : s.library.materials = .empty) (differs : paintShader.name ≠ key) :
    let s' := s.run (coating key)
    ∃ m, s'.library.materials.get? "Base" = some m ∧ m.toFile.shader = paintShader.name ∧
      s'.library.shader? m.toFile.shader = none ∧ ¬ s'.Resolves m ∧
      (s'.perform (.loadShader m.toFile.shader)).1 = .error (.shaderNotFound m.toFile.shader) := by
  intro s'
  obtain ⟨m, coated⟩ := anew.coated materials
  have declared : m.toFile.shader = paintShader.name := congrArg Shader.name coated.shader
  have unknown : s'.library.shaders.get? paintShader.name = none := coated.others _ differs
  have absent : s'.library.shader? paintShader.name = none := by rw [shader?, unknown]; rfl
  have missing : s'.library.sources.read s'.host.disk paintShader.name =
      .error (.notFound paintShader.name) :=
    coated.sources ▸ anew.read_other s'.host.disk differs
  have failed : Attempt.Ends (Operation.loadShader paintShader.name).attempt s'.library s'.host
      fun r _ _ => r = .error (.shaderNotFound paintShader.name) := by
    refine (loadShader_missing unknown missing).bind ?_ ?_
    · rintro _ _ _ ⟨is, _⟩
      cases is
    · rintro _ _ _ ⟨is, _⟩
      cases is
      rfl
  refine ⟨m, coated.there, declared, declared ▸ absent, ?_, ?_⟩
  · rintro ⟨⟨o, is⟩, _⟩
    rw [declared, absent] at is
    cases is
  · rw [declared]
    exact (s'.ends_perform _).1 failed

/-- A material whose file names no shader of the library: the text that declares `Paint` is
registered as `Alias`, and the material is made for that. Its file names `Paint`, which is no key
of the library and cannot be loaded. -/
theorem alias_unresolved :
    let s' := aliasShop.run (coating "Alias")
    ∃ m, s'.library.materials.get? "Base" = some m ∧ m.toFile.shader = "Paint" ∧
      s'.library.shader? m.toFile.shader = none ∧ ¬ s'.Resolves m ∧
      (s'.perform (.loadShader m.toFile.shader)).1 = .error (.shaderNotFound m.toFile.shader) :=
  paintsAnew_aliasShop.unresolved rfl (by decide)

end Session

end SurfaceShading
