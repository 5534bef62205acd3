/-
  What the library does to the world. It only ever adds to the pipelines and textures that the
  device made and gives no handle twice, so a pipeline once made stays what it is
  (`Device.Advances`). All work but one leaves the shader files of the disk alone (`Host.Builds`),
  and work for shaders the buffers of the device too (`Host.Spares`). This holds however the work
  ends. The exception is saving a material, which writes any file.
-/
import SurfaceShading.Proofs.Frame
import SurfaceShading.Proofs.ShaderFiles

namespace SurfaceShading

/-! ## Pipelines of the device -/

namespace Device

/-- No pipeline has a handle that is still to be given. -/
def Sound (d : Device) : Prop := ∀ p ∈ d.pipelines, p.1 ≤ d.lastHandle

/-- The device made one pipeline of a handle, and made it as described. -/
def Made (d : Device) (handle : Handle) (descriptor : PipelineDescriptor) : Prop :=
  ∀ descriptor', (handle, descriptor') ∈ d.pipelines ↔ descriptor' = descriptor

/-- What was made before is what it was, and the device goes on deciding as it did. -/
structure Advances (before after : Device) : Prop where
  policy : after.policy = before.policy
  rejected : after.rejected = before.rejected
  handles : before.lastHandle ≤ after.lastHandle
  textures : before.textures <+: after.textures
  sound : before.Sound → after.Sound
  made : before.Sound → ∀ {handle descriptor},
    before.Made handle descriptor → after.Made handle descriptor

theorem sound_new : new.Sound := fun _ mem => absurd mem List.not_mem_nil

theorem Made.handle_le {d : Device} {handle : Handle} {descriptor : PipelineDescriptor}
    (made : d.Made handle descriptor) (sound : d.Sound) : handle ≤ d.lastHandle :=
  sound _ ((made descriptor).2 rfl)

namespace Advances

theorem refl (d : Device) : Advances d d :=
  ⟨rfl, rfl, Nat.le_refl _, List.prefix_rfl, id, fun _ _ _ => id⟩

theorem trans {d d' d'' : Device} (first : Advances d d') (second : Advances d' d'') :
    Advances d d'' :=
  ⟨second.policy.trans first.policy, second.rejected.trans first.rejected,
    Nat.le_trans first.handles second.handles, first.textures.trans second.textures,
    fun sound => second.sound (first.sound sound),
    fun sound _ _ made => second.made (first.sound sound) (first.made sound made)⟩

/-- A device that made no pipeline and took back no handle. -/
theorem of_pipelines {d d' : Device} (policy : d'.policy = d.policy)
    (rejected : d'.rejected = d.rejected) (pipelines : d'.pipelines = d.pipelines)
    (handles : d.lastHandle ≤ d'.lastHandle) (textures : d.textures <+: d'.textures) :
    Advances d d' where
  policy := policy
  rejected := rejected
  handles := handles
  textures := textures
  sound sound p mem := Nat.le_trans (sound p (pipelines ▸ mem)) handles
  made _ _ _ made descriptor' := by rw [pipelines]; exact made descriptor'

/-- A device that made a pipeline of the next handle. -/
theorem of_pipeline {d d' : Device} {descriptor : PipelineDescriptor}
    (policy : d'.policy = d.policy) (rejected : d'.rejected = d.rejected)
    (pipelines : d'.pipelines = d.pipelines ++ [(d.lastHandle + 1, descriptor)])
    (handles : d'.lastHandle = d.lastHandle + 1) (textures : d'.textures = d.textures) :
    Advances d d' where
  policy := policy
  rejected := rejected
  handles := handles ▸ Nat.le_succ _
  textures := textures ▸ List.prefix_rfl
  sound sound p mem := by
    rw [pipelines] at mem
    rw [handles]
    rcases List.mem_append.1 mem with mem | mem
    · exact Nat.le_succ_of_le (sound p mem)
    · exact Nat.le_of_eq (congrArg Prod.fst (List.mem_singleton.1 mem))
  made sound handle _ made descriptor' := by
    rw [pipelines, List.mem_append, made descriptor', List.mem_singleton]
    refine ⟨fun mem => mem.resolve_right fun eq => ?_, .inl⟩
    have le := made.handle_le sound
    rw [(Prod.mk.inj eq).1] at le
    exact Nat.not_succ_le_self _ le

end Advances

/-- The next handle goes to the pipeline that is made next. -/
theorem made_next {d d' : Device} {descriptor : PipelineDescriptor} (sound : d.Sound)
    (pipelines : d'.pipelines = d.pipelines ++ [(d.lastHandle + 1, descriptor)]) :
    d'.Made (d.lastHandle + 1) descriptor := by
  intro descriptor'
  rw [pipelines, List.mem_append, List.mem_singleton]
  refine ⟨fun mem => ?_, fun eq => .inr (by rw [eq])⟩
  rcases mem with old | eq
  · exact absurd (sound _ old) (Nat.not_succ_le_self _)
  · exact (Prod.mk.inj eq).2

end Device

/-- Uploads were recorded after those before. -/
structure Commands.Extends (before after : Commands) : Prop where
  uploads : before.uploads <+: after.uploads

namespace Commands.Extends

theorem refl (c : Commands) : Extends c c := ⟨List.prefix_rfl⟩

theorem trans {c c' c'' : Commands} (first : Extends c c') (second : Extends c' c'') :
    Extends c c'' := ⟨first.uploads.trans second.uploads⟩

end Commands.Extends

namespace Host

/-- The device of the world advances. -/
def Advances (before after : Host) : Prop := before.device.Advances after.device

/-- The device advances and the shader files stay the same. -/
structure Builds (before after : Host) : Prop where
  device : before.device.Advances after.device
  files : before.disk.SameShaderFiles after.disk
  commands : before.commands.Extends after.commands

/-- The world goes on and no buffer is made, written or destroyed. -/
structure Spares (before after : Host) : Prop extends Builds before after where
  buffers : after.device.buffers = before.device.buffers

instance : Std.Refl Advances := ⟨fun _ => .refl _⟩

instance : Trans Advances Advances Advances := ⟨Device.Advances.trans⟩

instance : Std.Refl Builds := ⟨fun _ => ⟨.refl _, .refl _, .refl _⟩⟩

instance : Trans Builds Builds Builds :=
  ⟨fun first second => ⟨first.device.trans second.device, first.files.trans second.files,
    first.commands.trans second.commands⟩⟩

theorem Builds.trans {h h' h'' : Host} (first : Builds h h') (second : Builds h' h'') :
    Builds h h'' := Trans.trans first second

instance : Std.Refl Spares := ⟨fun h => ⟨Std.Refl.refl h, rfl⟩⟩

instance : Trans Spares Spares Spares :=
  ⟨fun first second => ⟨first.toBuilds.trans second.toBuilds, second.buffers.trans first.buffers⟩⟩

theorem Spares.trans {h h' h'' : Host} (first : Spares h h') (second : Spares h' h'') :
    Spares h h'' := Trans.trans first second

end Host

theorem HostM.Keeps.builds {α : Type} {m : HostM α} (keeps : HostM.Keeps Host.Spares m) :
    HostM.Keeps Host.Builds m := keeps.mono fun _ _ => Host.Spares.toBuilds

theorem Work.Keeps.builds {σ α : Type} {w : Work σ α} (keeps : Work.Keeps Host.Spares w) :
    Work.Keeps Host.Builds w := keeps.mono fun _ _ => Host.Spares.toBuilds

theorem Attempt.Keeps.builds {σ α : Type} {x : Attempt σ α}
    (keeps : Attempt.Keeps Host.Spares x) : Attempt.Keeps Host.Builds x :=
  keeps.mono fun _ _ => Host.Spares.toBuilds

/-! ## Reports and the device -/

theorem report_keeps (event : Event) : HostM.Keeps Host.Spares (report event) :=
  .modify fun _ => ⟨⟨.refl _, .refl _, .refl _⟩, rfl⟩

namespace Device

theorem ask_keeps (request : DeviceRequest) : HostM.Keeps Host.Spares (ask request) :=
  .bind .get fun _ => .bind (.modify fun _ =>
    ⟨⟨.of_pipelines rfl rfl rfl (Nat.le_refl _) List.prefix_rfl, .refl _, .refl _⟩, rfl⟩) fun _ =>
    .pure

theorem takeHandle_keeps : HostM.Keeps Host.Spares takeHandle :=
  .bind (.modify fun _ =>
    ⟨⟨.of_pipelines rfl rfl rfl (Nat.le_succ _) List.prefix_rfl, .refl _, .refl _⟩, rfl⟩) fun _ =>
    .bind .get fun _ => .pure

/-- A change that concerns neither pipelines nor handles nor decisions, and no texture that is
there. -/
theorem change_keeps {f : Device → Device} (policy : ∀ d, (f d).policy = d.policy)
    (rejected : ∀ d, (f d).rejected = d.rejected)
    (pipelines : ∀ d, (f d).pipelines = d.pipelines)
    (handles : ∀ d, (f d).lastHandle = d.lastHandle)
    (textures : ∀ d, d.textures <+: (f d).textures) : HostM.Keeps Host.Builds (change f) :=
  .modify fun h =>
    ⟨.of_pipelines (policy _) (rejected _) (pipelines _) (handles h.device ▸ Nat.le_refl _)
      (textures _), .refl _, .refl _⟩

theorem compile_keeps (source entry : String) (stage : Stage) :
    HostM.Keeps Host.Spares (compile source entry stage) := by
  refine .bind (ask_keeps _) fun refusal => ?_
  split
  · exact .pure
  · refine .bind (report_keeps _) fun _ => .bind .get fun _ => ?_
    split
    · exact .pure
    · exact .bind (.modify fun _ =>
        ⟨⟨.of_pipelines rfl rfl rfl (Nat.le_refl _) List.prefix_rfl, .refl _, .refl _⟩, rfl⟩)
        fun _ => .pure

/-- A pipeline that is made is recorded under its handle. -/
theorem createPipeline_ends (descriptor : PipelineDescriptor) (h : Host) :
    HostM.Ends (createPipeline descriptor) h fun r h' => Host.Spares h h' ∧
      ∀ handle, r = .ok handle → h.device.Sound → h'.device.Made handle descriptor := by
  have asked := ask_keeps (.pipeline descriptor) h
  refine HostM.ends_bind _ _ |>.2 (asked.mono fun refusal h₁ spares => ?_)
  cases refusal with
  | some e => exact ⟨spares, nofun⟩
  | none =>
    refine ⟨spares.trans ⟨⟨.of_pipeline rfl rfl rfl rfl rfl, .refl _, .refl _⟩, rfl⟩,
      fun handle eq sound => ?_⟩
    cases eq
    exact made_next (spares.device.sound sound) rfl

theorem createBuffer_keeps (descriptor : BufferDescriptor) :
    HostM.Keeps Host.Builds (createBuffer descriptor) := by
  refine .bind (ask_keeps _).builds fun refusal => ?_
  split
  · exact .pure
  · exact .bind (report_keeps _).builds fun _ => .bind takeHandle_keeps.builds fun _ =>
      .bind (change_keeps (fun _ => rfl) (fun _ => rfl) (fun _ => rfl) (fun _ => rfl)
        fun _ => List.prefix_rfl) fun _ => .pure

theorem writeBuffer_keeps (buffer : Handle) (offset : Nat) (data : List UInt8) :
    HostM.Keeps Host.Builds (writeBuffer buffer offset data) := by
  refine .bind .get fun _ => ?_
  split
  · exact (report_keeps _).builds
  · exact change_keeps (fun _ => rfl) (fun _ => rfl) (fun _ => rfl) (fun _ => rfl)
      fun _ => List.prefix_rfl

theorem destroyBuffer_keeps (buffer : Handle) : HostM.Keeps Host.Builds (destroyBuffer buffer) :=
  change_keeps (fun _ => rfl) (fun _ => rfl) (fun _ => rfl) (fun _ => rfl) fun _ => List.prefix_rfl

end Device

end SurfaceShading
