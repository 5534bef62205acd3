/-
  Materials in care. Each material of a library has an exact flag for its textures, and is on the
  device what it packs as soon as it is clean (`Material.Tended`); since every buffer has one
  owner, work on one material leaves this as it is for all others. So all requests to a library
  keep its materials in care (`InCare`), and with them the one that is still being made, whatever
  is refused on the way.
-/
import SurfaceShading.Proofs.Library.Custody
import SurfaceShading.Proofs.Material.Pending

namespace SurfaceShading

/-- Custody is kept of the buffers, and every material is tended; so is one more, which is not
kept yet. -/
structure InCare (materials : OrderedMap String Material) (held : Option Material) (d : Device) :
    Prop where
  custody : Custody materials (held.bind Material.buffer) d
  kept : ∀ {name m}, materials.get? name = some m → m.Tended d
  held : ∀ {m}, held = some m → m.Tended d

namespace InCare

variable {materials : OrderedMap String Material} {held : Option Material} {d d' : Device}
  {m m' : Material} {h h' : Host}

/-- Nothing is done to the buffers. -/
theorem congr (care : InCare materials held d) (buffers : d'.buffers = d.buffers)
    (handles : d.lastHandle ≤ d'.lastHandle) : InCare materials held d' where
  custody := {
    sorted := care.custody.sorted
    tidy := fun buffer live => by
      rw [Device.IsLive, buffers] at live
      exact Nat.le_trans (care.custody.tidy buffer live) handles
    owned := fun owned => by
      rw [Device.IsLive, buffers]
      exact care.custody.owned owned
    single := care.custody.single
    loose := fun is => by
      rw [Device.IsLive, buffers]
      exact care.custody.loose is }
  kept there := (care.kept there).congr fun _ _ => by rw [buffers]
  held is := (care.held is).congr fun _ _ => by rw [buffers]

theorem spares (care : InCare materials held h.device) (spares : h.Spares h') :
    InCare materials held h'.device := care.congr spares.buffers spares.device.handles

/-- A new material is made. -/
theorem begin (care : InCare materials none d) (name : String) (object : ShaderId)
    (shader : Shader) : InCare materials (some (.new name object shader)) d where
  custody := care.custody
  kept := care.kept
  held is := by
    cases is
    exact Material.tended_new name object shader d

/-- The material that is being made is given up. -/
theorem drop (care : InCare materials held d) : InCare materials none d :=
  ⟨{ care.custody with loose := nofun }, care.kept, nofun⟩

/-- The material that is being made is worked on. -/
theorem work (care : InCare materials (some m) h.device) (worked : m.Worked h m' h') :
    InCare materials (some m') h'.device where
  custody := (care.custody.trade worked.trades).custody
  kept {name m₁} there := (care.kept there).congr fun buffer has => by
    have owned : Owned materials buffer := ⟨name, m₁, there, has⟩
    exact worked.others buffer (care.custody.owned owned) fun is => (care.custody.loose is).2 owned
  held is := by
    cases is
    exact worked.tended

/-- The material that was made is kept. -/
theorem keep (care : InCare materials (some m) d) (name : String)
    (new : materials.get? name = none) : InCare (materials.insert name m) none d where
  custody := (Custody.keep (m := m) care.custody name new).custody
  kept {other m₁} there := by
    rw [OrderedMap.get?_insert] at there
    split at there
    · cases there
      exact care.held rfl
    · exact care.kept there
  held := nofun

/-- A material of the library is worked on. -/
theorem rework {name : String} (care : InCare materials none h.device)
    (there : materials.get? name = some m) (worked : m.Worked h m' h') :
    InCare (materials.insert name m') none h'.device where
  custody := (Custody.replace care.custody there worked.trades).custody
  kept {other m₁} is := by
    rw [OrderedMap.get?_insert] at is
    split at is
    · cases is
      exact worked.tended
    · next different =>
      refine (care.kept is).congr fun buffer has => ?_
      refine worked.others buffer (care.custody.owned ⟨other, m₁, is, has⟩) fun has' => ?_
      exact different (care.custody.single is there has has')
  held := nofun

theorem tidy (care : InCare materials held d) : d.Tidy := care.custody.tidy

end InCare

namespace Library

variable {l : Library} {h : Host}

/-! ## New materials -/

theorem createMaterial_cares (name shader : String) (sound : l.Sound h.device)
    (idle : l.registry.state = .idle) (care : InCare l.materials none h.device) :
    Attempt.Ends (createMaterial name shader) l h fun _ l' h' =>
      InCare l'.materials none h'.device := by
  refine createMaterial_rule (fun _ _ => care)
    (fun _ => loadShader_belongings shader sound idle) ?_ ?_
  · rintro e l₁ h₁ ⟨materials, _, spares⟩
    rw [materials]
    exact care.spares spares
  · rintro object l₁ h₁ new ⟨materials, _, spares⟩
    rw [← materials] at care new
    have begun := (care.spares spares).begin name object.id object.shader
    have tended := begun.held rfl
    refine (Material.update_works tended.coherent.toBacked begun.tidy tended.tracked).mono ?_
    rintro r m h₂ ⟨worked, _⟩
    cases r with
    | ok _ => exact (begun.work worked).keep m.name (by rw [worked.name]; exact new)
    | error e => exact (begun.work worked).drop

/-- The material of a file is in care from its buffer on. -/
theorem furnish_cares (file : MaterialFile) (sound : l.Sound h.device)
    (idle : l.registry.state = .idle) (care : InCare l.materials none h.device) :
    Attempt.Ends (furnish file) l h fun r l' h' => l'.materials = l.materials ∧
      (∀ m, r = .ok m → m.name = file.name ∧ InCare l'.materials (some m) h'.device) ∧
      InCare l'.materials none h'.device := by
  refine furnish_rule (loadShader_belongings file.shader sound idle) ?_ ?_
  · rintro e l₁ h₁ ⟨materials, _, spares⟩
    rw [← materials] at care
    exact ⟨materials, nofun, care.spares spares⟩
  · rintro object l₁ h₁ ⟨materials, _, spares⟩
    rw [← materials] at care
    have begun := (care.spares spares).begin file.name object.id object.shader
    refine (Material.applyFile_createBuffer_works file (begun.held rfl) begun.tidy).mono
      fun r changed h₂ worked => ?_
    refine ⟨materials, fun m is => ?_, (begun.work worked).drop⟩
    cases r with
    | error e => cases is
    | ok _ =>
      cases is
      exact ⟨worked.name, begun.work worked⟩

theorem finishFile_cares (file : MaterialFile) (commands : Bool) {m : Material}
    (care : InCare l.materials (some m) h.device) (new : l.materials.get? m.name = none) :
    Attempt.Ends (finishFile file commands m) l h fun _ l' h' =>
      InCare l'.materials none h'.device := by
  refine finishFile_rule
    (S := fun _ l₁ h₁ => l₁.materials = l.materials ∧ h.Spares h₁)
    (Q := fun _ m' l₁ h₁ => InCare l₁.materials (some m') h₁.device ∧
      l₁.materials.get? m'.name = none)
    (fun _ => ensureDefaultTextures_spares) ?_ ?_ ?_ (fun _ _ _ _ held => held.1.drop) ?_
  · rintro e l₁ h₁ _ ⟨materials, spares⟩
    rw [materials]
    exact (care.spares spares).drop
  · rintro l₁ h₁ _ ⟨materials, spares⟩
    rw [← materials] at care new
    have spared := care.spares spares
    exact (Material.loadTextures_works l₁.textures (spared.held rfl) spared.tidy).mono
      fun _ _ _ ⟨worked, _⟩ => ⟨spared.work worked, worked.name ▸ new⟩
  · intro _
    have tended := care.held rfl
    exact (Material.update_works tended.coherent.toBacked care.tidy tended.tracked).mono
      fun _ _ _ ⟨worked, _⟩ => ⟨care.work worked, worked.name ▸ new⟩
  · exact fun m' _ _ _ ⟨held, new⟩ spares => (held.spares spares).keep m'.name new

theorem loadMaterial_cares (path : String) (commands : Bool) (sound : l.Sound h.device)
    (idle : l.registry.state = .idle) (care : InCare l.materials none h.device) :
    Attempt.Ends (loadMaterial path commands) l h fun _ l' h' =>
      InCare l'.materials none h'.device := by
  refine loadMaterial_rule (fun _ _ => care) (fun _ _ _ _ _ => care.spares)
    (fun _ _ _ _ _ => care) fun header file headed there read => ?_
  rw [ofFile_eq]
  refine (furnish_cares file sound idle care).bind ?_ fun _ _ _ ⟨_, _, care₁⟩ => care₁
  rintro m l₁ h₁ ⟨materials, made, _⟩
  obtain ⟨own, care₁⟩ := made m rfl
  refine finishFile_cares file commands care₁ ?_
  rw [materials, own, MaterialFile.load_name headed read]
  exact there

theorem createDefaults_cares (sound : l.Sound h.device) (idle : l.registry.state = .idle)
    (care : InCare l.materials none h.device) :
    Attempt.Ends createDefaults l h fun _ l' h' => InCare l'.materials none h'.device := by
  let P (l' : Library) (h' : Host) : Prop :=
    Aside l h l' h' ∧ InCare l'.materials none h'.device
  have start : P l h := ⟨.refl l h, care⟩
  refine (createDefaults_preserves sound.shaders_sorted start ?_).mono fun _ _ _ => And.right
  rintro l₁ h₁ shader o built ⟨aside, care₁⟩
  refine ((createMaterial_cares _ shader (aside.sound sound) (aside.idle idle) care₁).and
    (createMaterial_aside _ built)).mono ?_
  exact fun _ _ _ ⟨later, beside⟩ => ⟨aside.trans beside, later⟩

/-! ## Materials of the library -/

theorem bindNamed_cares (name : String) (care : InCare l.materials none h.device) :
    Attempt.Ends (bindNamed name) l h fun _ l' h' => InCare l'.materials none h'.device :=
  bindNamed_rule (fun _ there => ends_bindMaterial.2
    ((Material.bind_works l.config.rootSlot (care.kept there) care.tidy).mono
      fun _ _ _ => care.rework there)) care

end Library

end SurfaceShading
