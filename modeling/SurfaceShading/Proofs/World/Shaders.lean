/-
  What work for shaders does to the world: compiling passes, making their pipelines, reading
  and registering shaders, and bringing lighting passes up to date. No buffer is touched. Each
  lemma follows its function from the first step to the last.
-/
import SurfaceShading.Library
import SurfaceShading.Proofs.World.Basic

namespace SurfaceShading

/-! ## Passes of shaders -/

namespace Shader

theorem foreign_artifactName (s : Shader) (directory : String) (index : Nat) :
    Path.Foreign (Path.join directory (s.artifactName index)) := by
  refine ⟨'l', Path.EndsIn.join ?_ directory, by decide, by decide⟩
  unfold Path.EndsIn artifactName Artifact.sourceName
  rw [String.toList_append]
  exact List.IsSuffix.trans (by decide : ['l'] <:+ ".hlsl".toList) (List.suffix_append ..)

theorem foreign_reportName (s : Shader) (directory : String) (index : Nat) :
    Path.Foreign (Path.join directory (s.reportName index)) := by
  refine ⟨'t', Path.EndsIn.join ?_ directory, by decide, by decide⟩
  unfold Path.EndsIn reportName Artifact.reportName
  rw [String.toList_append]
  exact List.IsSuffix.trans (by decide : ['t'] <:+ "_error.txt".toList) (List.suffix_append ..)

end Shader

theorem writeArtifact_keeps {path : String} (foreign : Path.Foreign path) (text : String) :
    HostM.Keeps Host.Spares (writeArtifact path text) := fun h =>
  (HostM.ends_modifyGet _).2
    ⟨⟨.refl _, Disk.writeBelow_sameShaderFiles foreign h.disk (Text.utf8 text), .refl _⟩, rfl⟩

namespace ShaderObject

theorem writeReport_keeps (shader : Shader) (target : CompileTarget) (index : Nat)
    (diagnostic source : String) :
    HostM.Keeps Host.Spares (writeReport shader target index diagnostic source) := by
  unfold writeReport
  split
  · exact .pure
  · next directory _ =>
    refine .bind (writeArtifact_keeps (shader.foreign_reportName directory index) _) fun _ => ?_
    split
    · exact .pure
    · exact .bind (report_keeps _) fun _ => .pure

theorem writeSource_keeps (shader : Shader) (target : CompileTarget) (index : Nat)
    (source : String) : HostM.Keeps Host.Spares (writeSource shader target index source) := by
  unfold writeSource
  split
  · exact .pure
  · next directory _ =>
    refine .bind (writeArtifact_keeps (shader.foreign_artifactName directory index) _) fun _ => ?_
    split
    · exact .pure
    · exact .bind (report_keeps _) fun _ => .pure

theorem compileStage_keeps (shader : Shader) (target : CompileTarget) (index : Nat)
    (source entry : String) (stage : Stage) :
    HostM.Keeps Host.Spares (compileStage shader target index source entry stage) := by
  refine .bind (Device.compile_keeps _ _ _) fun _ => ?_
  split
  · exact .pure
  · exact .bind (writeReport_keeps _ _ _ _ _) fun _ => .bind (report_keeps _) fun _ => .pure

variable (models : List ShadingModel) (target : CompileTarget)

theorem compilePass_keeps (index : Nat) :
    Attempt.Keeps Host.Spares (compilePass index models target) := by
  refine .bind .get fun o => .bind .ofExcept fun source => ?_
  split
  · exact .throw
  · exact .bind (.mk (.lift (writeSource_keeps _ _ _ _))) fun _ =>
      .bind (.mk (.lift (compileStage_keeps _ _ _ _ _ _))) fun _ =>
      .bind (.mk (.lift (compileStage_keeps _ _ _ _ _ _))) fun _ => .modify

theorem compilePasses_keeps (indices : List Nat) :
    Attempt.Keeps Host.Spares (compilePasses models target indices) := by
  induction indices with
  | nil => exact .pure
  | cons index rest ih => exact .bind (compilePass_keeps models target index) fun _ => ih

theorem compile_keeps : Attempt.Keeps Host.Spares (compile models target) :=
  .bind .get fun _ => .bind (compilePasses_keeps models target _) fun _ =>
    .liftHost (report_keeps _)

theorem createPipeline_keeps (index : Nat) :
    Attempt.Keeps Host.Spares (createPipeline index) := by
  refine .bind .get fun o => .bind .ofExcept fun kind => ?_
  split
  · exact .throw
  · refine .bind (.ofDevice fun h => ?_) fun _ => .bind .modify fun _ => .pure
    exact (Device.createPipeline_ends _ h).mono fun _ _ ends => ends.1

theorem createPipelinesOf_keeps (indices : List Nat) :
    Attempt.Keeps Host.Spares (createPipelinesOf indices) := by
  induction indices with
  | nil => exact .pure
  | cons index rest ih => exact .bind (createPipeline_keeps index) fun _ => ih

theorem build_keeps : Attempt.Keeps Host.Spares (build models target) :=
  .bind (compile_keeps models target) fun _ => .bind .get fun _ => createPipelinesOf_keeps _

theorem rebuildPasses_keeps (indices : List Nat) :
    Attempt.Keeps Host.Spares (rebuildPasses models target indices) := by
  induction indices with
  | nil => exact .pure
  | cons index rest ih =>
    exact .bind (compilePass_keeps models target index) fun _ =>
      .bind (createPipeline_keeps index) fun _ => .bind ih fun _ => .pure

theorem rebuildLighting_keeps : Attempt.Keeps Host.Spares (rebuildLighting models target) :=
  .bind .get fun _ => rebuildPasses_keeps models target _

end ShaderObject

/-! ## Registration -/

theorem Library.onRegistry_keeps {R : Host → Host → Prop} [Std.Refl R] [Trans R R R]
    (change : ModelRegistry → Except RegistryConflict ModelRegistry) :
    Attempt.Keeps R (onRegistry change) := by
  refine .bind .get fun l => ?_
  split
  · exact .modify
  · exact .throw

/-- Registration keeps a relation of worlds if reports do, and the removal of a file that is no
shader file: it does nothing else to the world. -/
structure Host.AdmitsRegistration (R : Host → Host → Prop) : Prop where
  told : ∀ (h : Host) (events : List Event), R h { h with events := h.events ++ events }
  removed : ∀ (h : Host) {path : String} {disk : Disk}, Path.Foreign path →
    h.disk.remove path = .ok disk → R h { h with disk := disk }

namespace Host.AdmitsRegistration

variable {R : Host → Host → Prop} [Std.Refl R] [Trans R R R] (admits : AdmitsRegistration R)

include admits

omit [Std.Refl R] [Trans R R R] in
theorem report (event : Event) : HostM.Keeps R (SurfaceShading.report event) :=
  .modify fun h => admits.told h [event]

omit [Std.Refl R] [Trans R R R] in
theorem reportAll (events : List Event) : HostM.Keeps R (SurfaceShading.reportAll events) :=
  .modify fun h => admits.told h events

theorem removeArtifact (s : Shader) (directory : String) (index : Nat) :
    HostM.Keeps R (s.removeArtifact directory index) := by
  intro h
  unfold Shader.removeArtifact
  simp only [HostM.ends_bind, HostM.ends_get]
  split
  · next disk removed =>
    have gone := admits.removed h (s.foreign_artifactName directory index) removed
    exact (admits.report _ { h with disk := disk }).mono fun _ _ told => Trans.trans gone told
  · exact HostM.Keeps.pure h
  · exact admits.report _ h

theorem removeArtifacts (s : Shader) (directory : String) (indices : List Nat) :
    HostM.Keeps R (s.removeArtifacts directory indices) := by
  induction indices with
  | nil => exact .pure
  | cons index rest ih => exact .bind (admits.removeArtifact s directory index) fun _ => ih

theorem readDefinition (name : String) : Attempt.Keeps R (Library.readDefinition name) := by
  refine .bind .get fun l => .bind .getHost fun h => ?_
  dsimp only
  split
  · exact .throw
  · refine .bind (.liftHost (admits.reportAll _)) fun _ => ?_
    split
    · exact .bind (.liftHost (admits.report _)) fun _ => .throw
    · exact .pure

theorem removeLightingArtifacts : Work.Keeps R Library.removeLightingArtifacts := by
  refine .bind .get fun l => ?_
  split
  · exact .pure
  · exact .forM (fun e : ShaderEntry => .lift (admits.removeArtifacts e.object.shader _ _)) _

theorem registerModel (model : ShadingModel) : Attempt.Keeps R (Library.registerModel model) := by
  refine .bind .get fun l => .bind (.liftHost (admits.reportAll _)) fun _ => ?_
  split
  · exact .throw
  · refine .bind .set fun _ => ?_
    split
    · exact .liftWork admits.removeLightingArtifacts
    · exact .pure

theorem addShader (name : String) (definition : Definition) :
    Attempt.Keeps R (Library.addShader name definition) := by
  refine .bind .get fun l => ?_
  dsimp only
  refine .onCondition (.liftHost (admits.report _)) (.bind (.liftHost (admits.reportAll _))
    fun _ => .bind .ofExcept fun shader => ?_)
  split
  · exact .bind (admits.registerModel _) fun _ => .bind (.liftHost (admits.report _)) fun _ =>
      .modify
  · exact .bind (.liftHost (admits.report _)) fun _ => .modify

theorem ensureShader (name : String) : Attempt.Keeps R (Library.ensureShader name) := by
  refine .bind .get fun l => ?_
  split
  · exact .bind (admits.readDefinition name) fun _ => admits.addShader name _
  · exact .pure

theorem ensureShaders (names : List String) : Attempt.Keeps R (Library.ensureShaders names) := by
  induction names with
  | nil => exact .pure
  | cons name rest ih => exact .bind (admits.ensureShader name) fun _ => .bind ih fun _ => .pure

theorem registerShaders (names : List String) :
    Attempt.Keeps R (Library.registerShaders names) :=
  .bind (Library.onRegistry_keeps _) fun _ =>
    .bind (.liftWork (.run (admits.ensureShaders names))) fun _ => .bind .modify fun _ => .ofExcept

theorem registerAll : Attempt.Keeps R Library.registerAll :=
  .bind .get fun _ => .bind .getHost fun _ => admits.registerShaders _

end Host.AdmitsRegistration

/-- Registration leaves pipelines, shader files and buffers alone. -/
theorem Host.spares_registration : AdmitsRegistration Spares where
  told _ _ := ⟨⟨.refl _, .refl _, .refl _⟩, rfl⟩
  removed _ _ _ foreign removed :=
    ⟨⟨.refl _, Disk.remove_sameShaderFiles foreign removed, .refl _⟩, rfl⟩

/-! ## Shaders of the library -/

namespace Library

theorem onShader_keeps {α : Type} (name : String) (none : α) {attempt : Attempt ShaderObject α}
    (keeps : Attempt.Keeps Host.Spares attempt) :
    Attempt.Keeps Host.Spares (onShader name none attempt) := by
  refine .mk (.bind .get fun l => ?_)
  split
  · exact .pure
  · exact .bind (.lift (.runAttempt keeps _)) fun _ => .bind .modify fun _ => .pure

theorem ensureShader_keeps (name : String) : Attempt.Keeps Host.Spares (ensureShader name) :=
  Host.spares_registration.ensureShader name

theorem registerShaders_keeps (names : List String) :
    Attempt.Keeps Host.Spares (registerShaders names) :=
  Host.spares_registration.registerShaders names

theorem registerAll_keeps : Attempt.Keeps Host.Spares registerAll :=
  Host.spares_registration.registerAll

theorem rebuildLighting_keeps (models : List ShadingModel) (names : List String) :
    Attempt.Keeps Host.Spares (rebuildLighting models names) := by
  induction names with
  | nil => exact .pure
  | cons name rest ih =>
    exact .bind .get fun _ =>
      .bind (onShader_keeps _ _ (ShaderObject.rebuildLighting_keeps models _)) fun _ =>
      .bind ih fun _ => .pure

theorem regenerateExcept_keeps (skipped : List String) :
    Attempt.Keeps Host.Spares (regenerateExcept skipped) := by
  refine .bind (onRegistry_keeps _) fun _ => .bind .get fun l => ?_
  refine .bind (.liftWork (.run (rebuildLighting_keeps _ _))) fun r => ?_
  split
  · exact .bind .modify fun _ => .onCondition (.liftHost (report_keeps _)) .pure
  · exact .bind .modify fun _ => .throw

theorem buildShader_keeps (name : String) : Attempt.Keeps Host.Spares (buildShader name) :=
  .bind .get fun _ => .bind (onShader_keeps _ _ (ShaderObject.build_keeps _ _)) fun _ => .modify

theorem buildAll_keeps (names : List String) : Attempt.Keeps Host.Spares (buildAll names) := by
  induction names with
  | nil => exact .pure
  | cons name rest ih =>
    refine .bind (.liftWork (.run (buildShader_keeps name))) fun r => ?_
    split
    · exact ih
    · exact .bind .modify fun _ => .throw

theorem compilePending_keeps : Attempt.Keeps Host.Spares compilePending := by
  refine .bind .get fun l => .bind .set fun _ => .bind (buildAll_keeps _) fun _ =>
    .bind .get fun _ => ?_
  split
  · exact .bind (regenerateExcept_keeps _) fun _ => .pure
  · exact .pure

theorem loadAll_keeps : Attempt.Keeps Host.Spares loadAll :=
  .bind registerAll_keeps fun _ => .bind (.liftHost (report_keeps _)) fun _ =>
    compilePending_keeps

theorem settle_keeps (name : String) (built : Except Error Unit) :
    Attempt.Keeps Host.Spares (settle name built) := by
  refine .bind .get fun l => ?_
  dsimp only
  split
  · refine .bind (.liftWork (.run (regenerateExcept_keeps _))) fun r => ?_
    split
    · exact .bind .throw fun _ => .ofExcept
    · exact .bind (.liftHost (report_keeps _)) fun _ => .ofExcept
    · exact .ofExcept
  · exact .ofExcept

theorem loadNew_keeps (name : String) : Attempt.Keeps Host.Spares (loadNew name) :=
  .bind (ensureShader_keeps name) fun _ => .bind .modify fun _ =>
    .bind (.liftWork (.run (buildShader_keeps name))) fun built => settle_keeps name built

theorem requireShader_keeps (name : String) : Attempt.Keeps Host.Spares (requireShader name) := by
  refine .bind .get fun l => ?_
  split
  · exact .pure
  · exact .throw

theorem loadShader_keeps (name : String) : Attempt.Keeps Host.Spares (loadShader name) := by
  refine .bind .get fun l => ?_
  split
  · exact .bind (.liftHost (report_keeps _)) fun _ => .pure
  · exact .bind (loadNew_keeps name) fun _ => requireShader_keeps name

end Library

end SurfaceShading
