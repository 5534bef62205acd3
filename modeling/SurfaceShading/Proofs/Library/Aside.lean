/-
  Work beside the shaders. What is done for materials and textures leaves sources, registry,
  shaders and pending shaders alone (`Aside`), but for the shader that a new material asks for.
  A default material asks for a shader that was built, which is found as it is.
-/
import SurfaceShading.Proofs.Library.Load
import SurfaceShading.Proofs.Library.Rules
import SurfaceShading.Proofs.World.Materials

namespace SurfaceShading.Library

variable {l : Library} {h : Host}

/-- Of the library only materials and textures change, and in the world nothing that a shader
rests on. -/
structure Aside (l : Library) (h : Host) (l' : Library) (h' : Host) : Prop where
  same : l' = { l with materials := l'.materials, textures := l'.textures }
  world : h.Advances h'

namespace Aside

theorem refl (l : Library) (h : Host) : Aside l h l h := ⟨rfl, .refl _⟩

theorem trans {l₁ l₂ : Library} {h₁ h₂ : Host} (first : Aside l h l₁ h₁)
    (second : Aside l₁ h₁ l₂ h₂) : Aside l h l₂ h₂ :=
  ⟨by rw [second.same, first.same], Trans.trans first.world second.world⟩

theorem shaders {l' : Library} {h' : Host} (aside : Aside l h l' h') :
    l'.shaders = l.shaders := by
  rw [aside.same]

theorem built? {l' : Library} {h' : Host} (aside : Aside l h l' h') (name : String) :
    l'.built? name = l.built? name := by
  unfold Library.built?
  rw [aside.shaders]

theorem sound {l' : Library} {h' : Host} (aside : Aside l h l' h') (sound : l.Sound h.device) :
    l'.Sound h'.device := by
  have advanced := sound.advance aside.world
  rw [aside.same]
  exact { advanced with }

theorem idle {l' : Library} {h' : Host} (aside : Aside l h l' h')
    (idle : l.registry.state = .idle) : l'.registry.state = .idle := by
  rw [aside.same]
  exact idle

theorem drawable {l' : Library} {h' : Host} (aside : Aside l h l' h') :
    l'.Drawable ↔ l.Drawable := by
  unfold Drawable
  rw [aside.shaders]

end Aside

/-- An attempt leaves the shaders alone if its end does and it builds nothing else. -/
theorem Aside.ofKeeps {α : Type} {x : Attempt Library α}
    (keeps : Attempt.Keeps Host.Builds x)
    (same : Attempt.Ends x l h fun _ l' _ =>
      l' = { l with materials := l'.materials, textures := l'.textures }) :
    Attempt.Ends x l h fun _ l' h' => Aside l h l' h' :=
  (same.and (keeps l h)).mono fun _ _ _ ⟨same, world⟩ => ⟨same, world.device⟩

theorem ensureDefaultTextures_aside :
    Attempt.Ends ensureDefaultTextures l h fun _ l' h' => Aside l h l' h' :=
  Aside.ofKeeps ensureDefaultTextures_keeps rfl

theorem resolveMaterial_aside (name : String) (m : Material) :
    Attempt.Ends (resolveMaterial name m) l h fun _ l' h' => Aside l h l' h' :=
  Aside.ofKeeps (resolveMaterial_keeps name m) rfl

theorem resolvePending_aside (l : Library) (h : Host) :
    Attempt.Ends resolvePending l h fun _ l' h' => Aside l h l' h' :=
  resolvePending_rule ensureDefaultTextures_aside fun aside =>
    (resolveMaterial_aside _ _).mono fun _ _ _ => aside.trans

theorem bindMaterial_aside (name : String) (m : Material) :
    Attempt.Ends (bindMaterial name m) l h fun _ l' h' => Aside l h l' h' :=
  Aside.ofKeeps (bindMaterial_keeps name m) rfl

theorem saveMaterial_aside (name path : String) :
    Attempt.Ends (saveMaterial name path) l h fun _ l' h' => Aside l h l' h' := by
  have same : Attempt.Ends (saveMaterial name path) l h fun _ l' _ =>
      l' = { l with materials := l'.materials, textures := l'.textures } :=
    saveMaterial_rule (fun _ _ => rfl) fun _ => rfl
  exact (same.and (saveMaterial_keeps name path l h)).mono fun _ _ _ ⟨same, world⟩ => ⟨same, world⟩

theorem releaseTexture_aside (path : String) :
    Work.Ends (releaseTexture path) l h fun _ l' h' => Aside l h l' h' := by
  have same : Work.Ends (releaseTexture path) l h fun _ l' _ =>
      l' = { l with materials := l'.materials, textures := l'.textures } := rfl
  exact (same.and (releaseTexture_keeps path l h)).mono fun _ _ _ ⟨same, world⟩ =>
    ⟨same, world.device⟩

/-- A shutdown keeps sources and registry and forgets the rest. -/
theorem shutdown_ends (l : Library) (h : Host) :
    Work.Ends shutdown l h fun _ l' h' => h.Advances h' ∧
      l' = { l with
        materials := .empty, shaders := .empty, pending := [], textures := l'.textures } := by
  refine ((shutdown_keeps l h).and ?_).mono fun _ _ _ ⟨world, same⟩ => ⟨world.device, same⟩
  unfold shutdown
  rw [Work.ends_bind, Work.ends_get, Work.ends_bind]
  refine Work.Ends.mono (Work.ends_forM ?_ _ l h) ?_
  · exact fun _ _ _ => rfl
  · rintro _ l₁ h₁ rfl
    rfl

/-! ## Materials of shaders -/

/-- The new material of a shader: what holds of the library as it is and once the shader is
loaded, holds in the end. -/
theorem createMaterial_ends (name shader : String) {P : Library → Host → Prop}
    (there : ∀ m, l.materials.get? name = some m → P l h)
    (loaded : l.materials.get? name = none → Attempt.Ends (loadShader shader) l h fun _ => P)
    (aside : ∀ {l₁ h₁ l₂ h₂}, Aside l₁ h₁ l₂ h₂ → P l₁ h₁ → P l₂ h₂) :
    Attempt.Ends (createMaterial name shader) l h fun _ => P := by
  refine createMaterial_rule there loaded (fun _ _ _ => id) fun o l₁ h₁ _ holds => ?_
  refine (Material.update_keeps _ h₁).mono fun r m h₂ builds => ?_
  cases r with
  | ok _ => exact aside ⟨rfl, builds.device⟩ holds
  | error e => exact aside ⟨rfl, builds.device⟩ holds

/-- The same for the material of a file. -/
theorem ofFile_ends (file : MaterialFile) (commands : Bool) {P : Library → Host → Prop}
    (loaded : Attempt.Ends (loadShader file.shader) l h fun _ => P)
    (aside : ∀ {l₁ h₁ l₂ h₂}, Aside l₁ h₁ l₂ h₂ → P l₁ h₁ → P l₂ h₂) :
    Attempt.Ends (ofFile file commands) l h fun _ => P := by
  have furnished : Attempt.Ends (furnish file) l h fun _ => P := by
    refine furnish_rule loaded (fun _ _ _ => id) fun o l₁ h₁ holds => ?_
    have keeps : Attempt.Keeps Host.Builds (do
        Material.applyFile file
        Material.createBuffer : Attempt Material Unit) :=
      .bind (.liftWork (Material.applyFile_keeps file).spares.builds) fun _ =>
        Material.createBuffer_keeps
    exact (keeps _ h₁).mono fun _ _ _ builds => aside ⟨rfl, builds.device⟩ holds
  rw [ofFile_eq]
  refine furnished.bind (fun m l₁ h₁ holds => ?_) fun _ _ _ => id
  refine finishFile_rule (S := fun _ => P) (Q := fun _ _ => P) ?_ ?_ ?_ ?_ ?_ ?_
  · exact fun _ => ensureDefaultTextures_aside.mono fun _ _ _ made => aside made holds
  · exact fun _ _ _ _ => id
  · exact fun l₂ h₂ _ holds => (Material.loadTextures_keeps (m, l₂.textures) h₂).mono
      fun _ _ _ builds => aside ⟨rfl, builds.device⟩ holds
  · exact fun _ => (Material.update_keeps m h₁).mono
      fun _ _ _ builds => aside ⟨rfl, builds.device⟩ holds
  · exact fun _ _ _ _ => id
  · exact fun _ _ _ _ holds spares => aside ⟨rfl, spares.device⟩ holds

theorem createMaterial_aside (name : String) {shader : String} {o : ShaderObject}
    (built : l.built? shader = some o) :
    Attempt.Ends (createMaterial name shader) l h fun _ l' h' => Aside l h l' h' := by
  refine createMaterial_ends (P := Aside l h) name shader (fun _ _ => .refl l h) (fun _ => ?_)
    fun second first => first.trans second
  simp only [loadShader, Attempt.ends_bind, Attempt.ends_get, Attempt.after_ok, built,
    Attempt.ends_liftHost]
  exact (report_keeps _ h).mono fun _ h' builds => ⟨rfl, builds.device⟩

/-- What making one material keeps, making those of shaders that were built does. -/
theorem createDefaultsOf_preserves {P : Library → Host → Prop}
    (each : ∀ {l h shader o}, l.built? shader = some o → P l h →
      Attempt.Ends (createMaterial (defaultName shader) shader) l h fun _ => P)
    (shaders : List String) (l : Library) (h : Host)
    (built : ∀ name ∈ shaders, ∃ o, l.built? name = some o) (start : P l h) :
    Attempt.Ends (createDefaultsOf shaders) l h fun _ => P := by
  induction shaders generalizing l h with
  | nil => exact start
  | cons shader rest ih =>
    obtain ⟨o, first⟩ := built shader List.mem_cons_self
    have others : ∀ name ∈ rest, ∃ o, l.built? name = some o :=
      fun name mem => built name (List.mem_cons_of_mem shader mem)
    unfold createDefaultsOf
    rw [Attempt.ends_bind, Attempt.ends_get, Attempt.after_ok]
    split
    · exact ih l h others start
    · refine ((each first start).and (createMaterial_aside _ first)).bind ?_ fun _ _ _ => And.left
      rintro _ l₁ h₁ ⟨kept, aside⟩
      have others₁ : ∀ name ∈ rest, ∃ o, l₁.built? name = some o := fun name mem => by
        rw [aside.built?]
        exact others name mem
      exact (ih l₁ h₁ others₁ kept).bind (fun _ _ _ => id) fun _ _ _ => id

/-- The shaders that default materials are made for were built. -/
theorem exists_built? (sorted : l.shaders.Sorted) {name : String}
    (mem : name ∈ l.builtShaders.keys) : ∃ o, l.built? name = some o := by
  obtain ⟨e, there, built⟩ := (mem_builtShaders_keys sorted).1 mem
  exact ⟨e.object, built?_eq_some.2 ⟨e, there, built, rfl⟩⟩

theorem createDefaults_preserves {P : Library → Host → Prop} (sorted : l.shaders.Sorted)
    (start : P l h) (each : ∀ {l h shader o}, l.built? shader = some o → P l h →
      Attempt.Ends (createMaterial (defaultName shader) shader) l h fun _ => P) :
    Attempt.Ends createDefaults l h fun _ => P := by
  unfold createDefaults
  rw [Attempt.ends_bind, Attempt.ends_get, Attempt.after_ok]
  exact createDefaultsOf_preserves each _ l h
    (fun _ mem => exists_built? sorted (List.mem_filter.1 mem).1) start

/-- Default materials are made for shaders that were built, which are found as they are. -/
theorem createDefaults_aside (sorted : l.shaders.Sorted) :
    Attempt.Ends createDefaults l h fun _ l' h' => Aside l h l' h' :=
  createDefaults_preserves (P := Aside l h) sorted (.refl l h) fun built first =>
    (createMaterial_aside _ built).mono fun _ _ _ second => first.trans second

end SurfaceShading.Library
