/-
  What a library keeps from one request to the next. No shader object has the number of another,
  and a shader that was read stays the object that it is (`KeepsShaders`). Materials that are
  there stay there, and each that comes is kept under its own name and made for the object that
  is in the library under the name that was asked for (`Grows`). A request that works on
  materials makes no new ones (`MaterialsBecome`).
-/
import SurfaceShading.Proofs.Library.Custody
import SurfaceShading.Proofs.Material.Origin

namespace SurfaceShading.Library

variable {l l' : Library} {h h' : Host}

/-! ## Shader objects -/

/-- No two shaders of the library have one number, and none has a number still to be given. -/
structure Numbered (l : Library) : Prop where
  given : ∀ {name e}, l.shaders.get? name = some e → e.object.id < l.nextShader
  distinct : ∀ {name name' e e'}, l.shaders.get? name = some e → l.shaders.get? name' = some e' →
    e.object.id = e'.object.id → name = name'

theorem Numbered.replacing (numbered : l.Numbered) {name : String} {e e' : ShaderEntry}
    (there : l.shaders.get? name = some e) (same : e'.object.id = e.object.id) :
    (l.replacing name e').Numbered := by
  have before {other : String} {e₁ : ShaderEntry}
      (is : (l.replacing name e').shaders.get? other = some e₁) :
      ∃ e₀, l.shaders.get? other = some e₀ ∧ e₀.object.id = e₁.object.id := by
    unfold Library.replacing at is
    rw [OrderedMap.get?_insert] at is
    split at is
    · next eq =>
      cases is
      exact ⟨e, eq ▸ there, same.symm⟩
    · exact ⟨e₁, is, rfl⟩
  refine ⟨fun is => ?_, fun is is' eq => ?_⟩
  · obtain ⟨e₀, there₀, id⟩ := before is
    exact id ▸ numbered.given there₀
  · obtain ⟨e₀, there₀, id⟩ := before is
    obtain ⟨e₁, there₁, id'⟩ := before is'
    exact numbered.distinct there₀ there₁ (id.trans (eq.trans id'.symm))

theorem Numbered.adding (numbered : l.Numbered) (name : String) (definition : Definition)
    (shader : Shader) : (l.adding name definition shader).Numbered := by
  have before {other : String} {e : ShaderEntry}
      (is : (l.adding name definition shader).shaders.get? other = some e) :
      other = name ∧ e.object.id = l.nextShader ∨ l.shaders.get? other = some e := by
    unfold Library.adding at is
    rw [OrderedMap.get?_insert] at is
    split at is
    · next eq =>
      cases is
      exact .inl ⟨eq, rfl⟩
    · exact .inr is
  refine ⟨fun is => ?_, fun is is' eq => ?_⟩
  · rcases before is with ⟨_, id⟩ | old
    · exact id ▸ Nat.lt_succ_self _
    · exact Nat.lt_succ_of_lt (numbered.given old)
  · rcases before is with ⟨rfl, id⟩ | old <;> rcases before is' with ⟨rfl, id'⟩ | old'
    · rfl
    · exact absurd (numbered.given old') (by rw [← eq, id]; exact Nat.lt_irrefl _)
    · exact absurd (numbered.given old) (by rw [eq, id']; exact Nat.lt_irrefl _)
    · exact numbered.distinct old old' eq

theorem Move.numbered (move : Move l h l' h') (numbered : l.Numbered) : l'.Numbered := by
  cases move with
  | world _ => exact numbered
  | turn _ => exact ⟨numbered.given, numbered.distinct⟩
  | add _ _ _ => exact numbered.adding _ _ _
  | queue _ _ => exact ⟨numbered.given, numbered.distinct⟩
  | rework there reworked => exact numbered.replacing there reworked.id
  | built there _ _ _ => exact numbered.replacing there rfl
  | finish _ => exact ⟨numbered.given, numbered.distinct⟩

theorem Moves.numbered (moves : Moves l h l' h') (numbered : l.Numbered) : l'.Numbered :=
  Moves.preserve (I := fun l _ => l.Numbered) Move.numbered moves numbered

/-- Each shader is still in the library as the same object, and built if it was. -/
def KeepsShaders (l l' : Library) : Prop :=
  ∀ name e, l.shaders.get? name = some e → ∃ e', l'.shaders.get? name = some e' ∧
    e'.object.id = e.object.id ∧ e'.object.shader = e.object.shader ∧
      (e.built = true → e'.built = true)

theorem KeepsShaders.ofSame (same : l'.shaders = l.shaders) : KeepsShaders l l' :=
  fun _ e there => ⟨e, same ▸ there, rfl, rfl, id⟩

theorem KeepsShaders.trans {l₁ l₂ : Library} (first : KeepsShaders l l₁)
    (second : KeepsShaders l₁ l₂) : KeepsShaders l l₂ := by
  intro name e there
  obtain ⟨e₁, there₁, id₁, shader₁, built₁⟩ := first name e there
  obtain ⟨e₂, there₂, id₂, shader₂, built₂⟩ := second name e₁ there₁
  exact ⟨e₂, there₂, id₂.trans id₁, shader₂.trans shader₁, built₂ ∘ built₁⟩

/-- The material is of the shader object of a name, which was built. -/
def Uses (l : Library) (m : Material) (key : String) : Prop :=
  ∃ o, l.built? key = some o ∧ o.id = m.object ∧ o.shader = m.shader

theorem Uses.keep {m : Material} {key : String} (uses : l.Uses m key)
    (keeps : KeepsShaders l l') : l'.Uses m key := by
  obtain ⟨o, is, id, shader⟩ := uses
  obtain ⟨e, there, built, rfl⟩ := built?_eq_some.1 is
  obtain ⟨e', there', id', shader', built'⟩ := keeps key e there
  exact ⟨e'.object, built?_eq_some.2 ⟨e', there', built' built, rfl⟩, id'.trans id,
    shader'.trans shader⟩

theorem Uses.become {m m' : Material} {key : String} (uses : l.Uses m key)
    (same : m.SameOrigin m') : l.Uses m' key := by
  unfold Uses
  rw [same.object, same.shader]
  exact uses

/-- A shader that is loaded was built. -/
theorem loadShader_builds (name : String) (sound : l.Sound h.device)
    (idle : l.registry.state = .idle) :
    Attempt.Ends (loadShader name) l h fun r l' h' => Moves l h l' h' ∧
      ∀ o, r = .ok o → l'.built? name = some o := by
  refine ((loadShader_ends name l h sound idle).and (loadShader_gives name l h)).mono ?_
  rintro r l' h' ⟨⟨o, built, rfl, rfl, builds⟩ | ⟨_, loaded⟩, gives⟩
  · refine ⟨(Move.world builds).moves, fun o' ok => ?_⟩
    cases ok
    exact built
  · refine ⟨loaded.moves, fun o ok => ?_⟩
    obtain ⟨e, there, same⟩ := gives o ok
    obtain ⟨_, _, _, e', there', built⟩ := loaded.done o ok
    cases there.symm.trans there'
    exact built?_eq_some.2 ⟨e, there, built, same⟩

/-! ## New materials -/

/-- The shaders are kept and so are the materials, as they are; each new material is kept under
its name, and made for the shader object of a name that was asked for. -/
structure Grows (asks : String → String → Prop) (l l' : Library) : Prop where
  shaders : KeepsShaders l l'
  numbered : l.Numbered → l'.Numbered
  sorted : l.materials.Sorted → l'.materials.Sorted
  kept : ∀ {name m}, l.materials.get? name = some m → l'.materials.get? name = some m
  made : ∀ {name m}, l.materials.get? name = none → l'.materials.get? name = some m →
    m.name = name ∧ ∃ key, asks name key ∧ l'.Uses m key

namespace Grows

variable {asks : String → String → Prop}

theorem ofShaders (shaders : KeepsShaders l l') (numbered : l.Numbered → l'.Numbered)
    (materials : l'.materials = l.materials) : Grows asks l l' where
  shaders := shaders
  numbered := numbered
  sorted := materials ▸ id
  kept := materials ▸ id
  made none is := by
    rw [materials, none] at is
    cases is

theorem ofMoves (moves : Moves l h l' h') : Grows asks l l' :=
  .ofShaders (fun _ _ => moves.entry) moves.numbered moves.belongings.1

theorem refl (l : Library) : Grows asks l l := .ofShaders (.ofSame rfl) id rfl

/-- Work beside the shaders that makes no material. -/
theorem ofAside (aside : Aside l h l' h') (materials : l'.materials = l.materials) :
    Grows asks l l' := by
  refine .ofShaders (.ofSame aside.shaders) (fun numbered => ?_) materials
  rw [aside.same]
  exact ⟨numbered.given, numbered.distinct⟩

theorem trans {l₁ l₂ : Library} (first : Grows asks l l₁) (second : Grows asks l₁ l₂) :
    Grows asks l l₂ where
  shaders := first.shaders.trans second.shaders
  numbered := second.numbered ∘ first.numbered
  sorted := second.sorted ∘ first.sorted
  kept := second.kept ∘ first.kept
  made {name m} new is := by
    cases there : l₁.materials.get? name with
    | none => exact second.made there is
    | some m₁ =>
      cases (second.kept there).symm.trans is
      obtain ⟨own, key, asked, uses⟩ := first.made new there
      exact ⟨own, key, asked, uses.keep second.shaders⟩

/-- A new material is kept. -/
theorem enrol {m : Material} {key : String} (new : l.materials.get? m.name = none)
    (uses : l.Uses m key) (asked : asks m.name key) :
    Grows asks l { l with materials := l.materials.insert m.name m } where
  shaders := .ofSame rfl
  numbered numbered := ⟨numbered.given, numbered.distinct⟩
  sorted sorted := sorted.insert _ _
  kept {name m'} there := by
    refine (OrderedMap.get?_insert_of_ne _ (fun same => ?_) _).trans there
    rw [same, new] at there
    cases there
  made {name m'} none is := by
    rw [OrderedMap.get?_insert] at is
    split at is
    · next same =>
      cases is
      exact ⟨same.symm, key, same ▸ asked, uses⟩
    · rw [none] at is
      cases is

end Grows

/-- A material is made for the shader that it asks for. -/
theorem createMaterial_grows (name shader : String) (sound : l.Sound h.device)
    (idle : l.registry.state = .idle) :
    Attempt.Ends (createMaterial name shader) l h fun _ l' _ =>
      Grows (fun name' key => name' = name ∧ key = shader) l l' := by
  refine createMaterial_rule (fun _ _ => .refl l) (fun _ => loadShader_builds shader sound idle)
    (fun _ _ _ loaded => .ofMoves loaded.1) ?_
  rintro o l₁ h₁ new ⟨moves, built⟩
  refine (Material.update_becomes _ h₁).mono fun r m h₂ becomes => ?_
  cases r with
  | ok _ =>
    have new₁ : l₁.materials.get? m.name = none := by
      rw [becomes.name, moves.belongings.1]
      exact new
    have uses : l₁.Uses m shader := Uses.become ⟨o, built o rfl, rfl, rfl⟩ becomes.toSameOrigin
    exact (Grows.ofMoves moves).trans (.enrol new₁ uses ⟨becomes.name, rfl⟩)
  | error e => exact .ofMoves moves

theorem furnish_uses (file : MaterialFile) (sound : l.Sound h.device)
    (idle : l.registry.state = .idle) :
    Attempt.Ends (furnish file) l h fun r l' _ => (∃ h', Moves l h l' h') ∧
      ∀ m, r = .ok m → m.name = file.name ∧ l'.Uses m file.shader := by
  refine furnish_rule (loadShader_builds file.shader sound idle)
    (fun _ _ h₁ loaded => ⟨⟨h₁, loaded.1⟩, fun _ is => by cases is⟩) ?_
  rintro o l₁ h₁ ⟨moves, built⟩
  refine (Material.applyFile_createBuffer_origin file _ h₁).mono fun r changed h₂ same => ?_
  refine ⟨⟨h₁, moves⟩, fun m ok => ?_⟩
  cases r with
  | error e => cases ok
  | ok _ =>
    cases ok
    exact ⟨same.name, Uses.become ⟨o, built o rfl, rfl, rfl⟩ same⟩

/-- The finished material is the one that is kept. -/
theorem finishFile_grows (file : MaterialFile) (commands : Bool) {m : Material} {key : String}
    {asks : String → String → Prop} (new : l.materials.get? m.name = none) (uses : l.Uses m key)
    (asked : asks m.name key) :
    Attempt.Ends (finishFile file commands m) l h fun r l' _ => Grows asks l l' ∧
      ∀ m', r = .ok m' → l'.materials.get? m.name = some m' := by
  refine finishFile_rule (S := fun _ l₁ _ => Grows asks l l₁ ∧ l₁.materials = l.materials)
    (Q := fun _ m' l₁ _ => m.SameOrigin m' ∧ Grows asks l l₁ ∧ l₁.materials = l.materials)
    ?_ ?_ ?_ ?_ ?_ ?_
  · exact fun _ => (ensureDefaultTextures_aside.and ensureDefaultTextures_spares).mono
      fun _ _ _ ⟨aside, materials, _⟩ => ⟨.ofAside aside materials, materials⟩
  · exact fun _ _ _ _ held => ⟨held.1, fun _ is => by cases is⟩
  · rintro l₁ h₁ _ ⟨grown, materials⟩
    refine (Material.loadTextures_becomes m l₁.textures h₁).mono fun _ _ _ becomes => ?_
    exact ⟨becomes.toSameOrigin, grown.trans (.ofAside ⟨rfl, .refl h₁.device⟩ rfl), materials⟩
  · exact fun _ => (Material.update_becomes m h).mono
      fun _ _ _ becomes => ⟨becomes.toSameOrigin, .refl l, rfl⟩
  · exact fun _ _ _ _ held => ⟨held.2.1, fun _ is => by cases is⟩
  · rintro m' l₁ _ _ ⟨same, grown, materials⟩ _
    refine ⟨grown.trans (.enrol ?_ ((uses.keep grown.shaders).become same) ?_), fun m'' ok => ?_⟩
    · rw [materials, same.name]
      exact new
    · rw [same.name]
      exact asked
    · cases ok
      rw [← same.name]
      exact OrderedMap.get?_insert_self _ _ _

/-- The material of a file is made for the shader that the file names, and kept under its name. -/
theorem loadMaterial_grows (path : String) (commands : Bool) (sound : l.Sound h.device)
    (idle : l.registry.state = .idle) :
    Attempt.Ends (loadMaterial path commands) l h fun r l' _ =>
      Grows (fun name key => ∃ file, MaterialFile.load h.disk path = .ok file ∧
        file.name = name ∧ file.shader = key) l l' ∧
      ∀ m file, r = .ok m → MaterialFile.load h.disk path = .ok file →
        l'.materials.get? file.name = some m := by
  refine loadMaterial_rule (fun _ _ => ⟨.refl l, fun _ _ is => by cases is⟩) ?_
    (fun _ _ _ _ _ => ⟨.refl l, fun _ _ is => by cases is⟩) ?_
  · rintro header m _ headed there _
    refine ⟨.refl l, fun m' file ok read => ?_⟩
    cases ok
    rw [MaterialFile.load_name headed read]
    exact there
  · intro header file headed there read
    rw [ofFile_eq]
    refine (furnish_uses file sound idle).bind ?_
      fun _ _ _ ⟨⟨_, moves⟩, _⟩ => ⟨.ofMoves moves, fun _ _ is => by cases is⟩
    rintro m l₁ h₁ ⟨⟨_, moves⟩, made⟩
    obtain ⟨own, uses⟩ := made m rfl
    have new : l₁.materials.get? m.name = none := by
      rw [own, moves.belongings.1, MaterialFile.load_name headed read]
      exact there
    refine (finishFile_grows file commands new uses ⟨file, read, own.symm, rfl⟩).mono
      fun r l₂ h₂ ⟨grown, kept⟩ =>
        ⟨(Grows.ofMoves moves).trans grown, fun m' file' ok same => ?_⟩
    cases read.symm.trans same
    rw [← own]
    exact kept m' ok

theorem createDefaults_grows (sound : l.Sound h.device) (idle : l.registry.state = .idle) :
    Attempt.Ends createDefaults l h fun _ l' _ =>
      Grows (fun name key => name = defaultName key) l l' := by
  let P (l' : Library) (h' : Host) : Prop :=
    Aside l h l' h' ∧ Grows (fun name key => name = defaultName key) l l'
  have start : P l h := ⟨.refl l h, .refl l⟩
  refine (createDefaults_preserves sound.shaders_sorted start ?_).mono fun _ _ _ => And.right
  rintro l₁ h₁ shader o built ⟨aside, grown⟩
  refine ((createMaterial_grows _ shader (aside.sound sound) (aside.idle idle)).and
    (createMaterial_aside _ built)).mono ?_
  rintro _ l₂ h₂ ⟨grows, beside⟩
  refine ⟨aside.trans beside, grown.trans { grows with made := fun new is => ?_ }⟩
  obtain ⟨own, key, ⟨rfl, rfl⟩, uses⟩ := grows.made new is
  exact ⟨own, key, rfl, uses⟩

/-! ## Materials that are worked on -/

/-- Each material is still there, worked on or as it was, and there are no others. -/
structure MaterialsBecome (worked : String → Prop)
    (materials materials' : OrderedMap String Material) : Prop where
  sorted : materials.Sorted → materials'.Sorted
  kept : ∀ {name m}, materials.get? name = some m →
    ∃ m', materials'.get? name = some m' ∧ m.Becomes m' ∧ (¬ worked name → m' = m)
  none : ∀ {name}, materials.get? name = none → materials'.get? name = none

namespace MaterialsBecome

variable {worked : String → Prop} {materials materials' materials'' : OrderedMap String Material}

theorem refl (materials : OrderedMap String Material) :
    MaterialsBecome worked materials materials :=
  ⟨id, fun {_ m} there => ⟨m, there, .refl m, fun _ => rfl⟩, id⟩

theorem trans (first : MaterialsBecome worked materials materials')
    (second : MaterialsBecome worked materials' materials'') :
    MaterialsBecome worked materials materials'' where
  sorted := second.sorted ∘ first.sorted
  kept there := by
    obtain ⟨m₁, there₁, becomes₁, same₁⟩ := first.kept there
    obtain ⟨m₂, there₂, becomes₂, same₂⟩ := second.kept there₁
    exact ⟨m₂, there₂, becomes₁.trans becomes₂, fun not => (same₂ not).trans (same₁ not)⟩
  none := second.none ∘ first.none

theorem insert {name : String} {m m' : Material} (there : materials.get? name = some m)
    (becomes : m.Becomes m') (work : worked name) :
    MaterialsBecome worked materials (materials.insert name m') where
  sorted sorted := sorted.insert name m'
  kept {other m₁} is := by
    rw [OrderedMap.get?_insert]
    split
    · next same =>
      subst same
      cases there.symm.trans is
      exact ⟨m', rfl, becomes, absurd work⟩
    · exact ⟨m₁, is, .refl m₁, fun _ => rfl⟩
  none {other} is := by
    refine (OrderedMap.get?_insert_of_ne _ (fun same => ?_) _).trans is
    rw [same, there] at is
    cases is

end MaterialsBecome

theorem resolvePending_becomes (sorted : l.materials.Sorted) :
    Attempt.Ends resolvePending l h fun _ l' _ =>
      MaterialsBecome (fun _ => True) l.materials l'.materials := by
  refine resolvePending_inOrder
    (P := fun l' _ => MaterialsBecome (fun _ => True) l.materials l'.materials) sorted
    (ensureDefaultTextures_spares.mono fun _ _ _ made => made.1 ▸ .refl _) ?_
  intro name m l₁ h₁ there before
  have resolved : Attempt.Ends Material.loadTextures (m, l₁.textures) h₁ fun _ s' _ =>
      m.Becomes s'.1 := Material.loadTextures_becomes m l₁.textures h₁
  exact before.trans (.insert there resolved True.intro)

theorem bindMaterial_becomes {name : String} {m : Material}
    (there : l.materials.get? name = some m) :
    Attempt.Ends (bindMaterial name m) l h fun _ l' _ =>
      MaterialsBecome (· = name) l.materials l'.materials :=
  ends_bindMaterial.2 ((Material.bind_becomes l.config.rootSlot m h).mono
    fun _ _ _ becomes => .insert there becomes rfl)

end SurfaceShading.Library
