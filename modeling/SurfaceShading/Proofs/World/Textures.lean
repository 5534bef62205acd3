/-
  What work for textures does to the world. It makes no pipeline, touches no shader file, and
  leaves the constant buffers alone: none is made, written, bound or destroyed
  (`Host.KeepsBuffers`). Which steps such work is made of is said once, for all relations of
  worlds that those steps keep (`Host.AdmitsTextures`).
-/
import SurfaceShading.Proofs.Texture.Sizes
import SurfaceShading.Proofs.World.Basic
import SurfaceShading.Texture.Table

namespace SurfaceShading

/-! ## Constant buffers -/

/-- The report of a write to a buffer that is not there. -/
def Event.isStrayWrite : Event → Bool
  | writeToUnknownBuffer _ => true
  | _ => false

namespace Host

/-- The reports of writes to buffers that were not there. -/
def strayWrites (h : Host) : List Event := h.events.filter Event.isStrayWrite

/-- The world goes on, and nothing happened to a constant buffer. -/
structure KeepsBuffers (before after : Host) : Prop extends Spares before after where
  writes : after.device.writes = before.device.writes
  strayWrites : after.strayWrites = before.strayWrites
  bound : after.commands.bound = before.commands.bound

instance : Std.Refl KeepsBuffers := ⟨fun h => ⟨Std.Refl.refl h, rfl, rfl, rfl⟩⟩

instance : Trans KeepsBuffers KeepsBuffers KeepsBuffers :=
  ⟨fun first second => ⟨first.toSpares.trans second.toSpares,
    second.writes.trans first.writes, second.strayWrites.trans first.strayWrites,
    second.bound.trans first.bound⟩⟩

end Host

theorem Work.Keeps.spares {σ α : Type} {w : Work σ α} (keeps : Work.Keeps Host.KeepsBuffers w) :
    Work.Keeps Host.Spares w := keeps.mono fun _ _ => Host.KeepsBuffers.toSpares

theorem Attempt.Keeps.spares {σ α : Type} {x : Attempt σ α}
    (keeps : Attempt.Keeps Host.KeepsBuffers x) : Attempt.Keeps Host.Spares x :=
  keeps.mono fun _ _ => Host.KeepsBuffers.toSpares

theorem report_keepsBuffers {event : Event} (is : event.isStrayWrite = false) :
    HostM.Keeps Host.KeepsBuffers (report event) := fun h => by
  refine ⟨report_keeps event h, rfl, ?_, rfl⟩
  show List.filter _ (h.events ++ [event]) = List.filter _ h.events
  rw [List.filter_append, List.filter_cons_of_neg (by simp [is]), List.filter_nil, List.append_nil]

namespace Device

theorem ask_keepsBuffers (request : DeviceRequest) :
    HostM.Keeps Host.KeepsBuffers (ask request) :=
  fun h => ⟨ask_keeps request h, rfl, rfl, rfl⟩

theorem takeHandle_keepsBuffers : HostM.Keeps Host.KeepsBuffers takeHandle :=
  fun h => ⟨takeHandle_keeps h, rfl, rfl, rfl⟩

theorem createTexture_keepsBuffers (descriptor : TextureDescriptor) :
    HostM.Keeps Host.KeepsBuffers (createTexture descriptor) := by
  refine .bind (ask_keepsBuffers _) fun refusal => ?_
  split
  · exact .pure
  · exact .bind (report_keepsBuffers rfl) fun _ => .bind takeHandle_keepsBuffers fun _ =>
      .bind (.modify fun _ =>
        ⟨⟨⟨.of_pipelines rfl rfl rfl (Nat.le_refl _) (List.prefix_append _ _), .refl _, .refl _⟩,
          rfl⟩, rfl, rfl, rfl⟩) fun _ => .pure

end Device

/-! ## Textures -/

theorem Commands.upload_keeps (texture : Handle) (data : List UInt8) (width height : UInt32) :
    HostM.Keeps Host.KeepsBuffers (Commands.upload texture data width height) :=
  .modify fun _ => ⟨⟨⟨.refl _, .refl _, ⟨List.prefix_append _ _⟩⟩, rfl⟩, rfl, rfl, rfl⟩

theorem TextureData.create_keeps (t : TextureData) : HostM.Keeps Host.KeepsBuffers t.create := by
  refine .bind (Device.createTexture_keepsBuffers _) fun r => ?_
  split
  · exact .pure
  · exact .bind (Commands.upload_keeps _ _ _ _) fun _ => .pure

/-- The device made a texture for the data, and the data was uploaded into it. -/
structure Host.HasTexture (h : Host) (texture : Handle) (data : TextureData) : Prop where
  made : (texture, data.descriptor) ∈ h.device.textures
  uploaded : ⟨texture, data.data, data.width, data.height⟩ ∈ h.commands.uploads

/-- All textures that were made and uploaded are still there. -/
structure Host.KeepsTextures (before after : Host) : Prop where
  made : before.device.textures <+: after.device.textures
  uploaded : before.commands.uploads <+: after.commands.uploads

namespace Host

variable {h h' : Host}

instance : Std.Refl KeepsTextures := ⟨fun _ => ⟨List.prefix_rfl, List.prefix_rfl⟩⟩

instance : Trans KeepsTextures KeepsTextures KeepsTextures :=
  ⟨fun first second => ⟨first.made.trans second.made, first.uploaded.trans second.uploaded⟩⟩

theorem Builds.keepsTextures (builds : h.Builds h') : h.KeepsTextures h' :=
  ⟨builds.device.textures, builds.commands.uploads⟩

/-- Textures stay as they were made. -/
theorem HasTexture.keeps {texture : Handle} {data : TextureData} (has : h.HasTexture texture data)
    (keeps : h.KeepsTextures h') : h'.HasTexture texture data where
  made := keeps.made.subset has.made
  uploaded := keeps.uploaded.subset has.uploaded

end Host

/-- The rule for making a texture: the device refuses, or it makes the texture, reports that, and
the data is uploaded. -/
theorem TextureData.create_rule (t : TextureData) {h : Host}
    {post : Except DeviceError Handle → Host → Prop}
    (refused : ∀ e, post (.error e)
      { h with device := { h.device with requests := h.device.requests + 1 } })
    (made : post (.ok (h.device.lastHandle + 1)) { h with
      device := { h.device with
        requests := h.device.requests + 1
        lastHandle := h.device.lastHandle + 1
        textures := h.device.textures ++ [(h.device.lastHandle + 1, t.descriptor)] }
      commands := { h.commands with
        uploads := h.commands.uploads ++ [⟨h.device.lastHandle + 1, t.data, t.width, t.height⟩] }
      events := h.events ++ [.deviceCreatesTexture t.descriptor] }) :
    HostM.Ends t.create h post := by
  unfold create Device.createTexture Device.ask
  simp only [HostM.ends_bind, HostM.ends_get, HostM.ends_modify, HostM.ends_pure]
  split
  · exact refused _
  · exact made

theorem TextureData.create_ends (t : TextureData) (h : Host) :
    HostM.Ends t.create h fun r h' => ∀ texture, r = .ok texture → h'.HasTexture texture t := by
  refine t.create_rule (fun _ => nofun) ?_
  rintro _ ⟨⟩
  exact ⟨List.mem_append_right _ List.mem_cons_self, List.mem_append_right _ List.mem_cons_self⟩

/-! ## Work on textures -/

/-- Work on textures keeps a relation of worlds if reports do, and what a loader notes of the
requests to it, and the making of textures from whole data. The report of a fault has to do so
where there is an image too wide. -/
structure Host.AdmitsTextures (R : Host → Host → Prop) : Prop where
  report : ∀ {event : Event}, event.isStrayWrite = false → event.isFault = false →
    HostM.Keeps R (SurfaceShading.report event)
  overflow : ∀ {h : Host}, h.disk.HoldsWide →
    HostM.Ends (SurfaceShading.report .productOverflows) h fun _ h' => R h h'
  asked : ∀ (h : Host) (loader : Loader), R h { h with loader := loader }
  create : ∀ {t : TextureData}, t.Whole → HostM.Keeps R t.create

namespace Host.AdmitsTextures

open TextureTable

variable {R : Host → Host → Prop} [Std.Refl R] [Trans R R R] (admits : AdmitsTextures R)

include admits

theorem loadImage (root : Option String) (path : String) (dimension : TextureDimension) :
    HostM.Keeps R (Loader.loadImage root path dimension) := by
  intro h
  unfold Loader.loadImage
  simp only [HostM.ends_bind, HostM.ends_get]
  split
  · exact Std.Refl.refl h
  · next flat read =>
    obtain ⟨shape, whole⟩ := TextureData.whole_ofFile read
    split
    · next fault =>
      exact admits.overflow ⟨_, flat, read, TextureData.not_narrow_of_shaped fault⟩
    · exact Std.Refl.refl h
    · next t shaped =>
      refine HostM.Keeps.bind (admits.create (TextureData.whole_of_shaped shape whole shaped))
        (fun r => ?_) h
      split
      · exact .pure
      · exact .bind (admits.report rfl rfl) fun _ => .pure

theorem loadStub (missing requests : List String) (path : String) (dimension : TextureDimension) :
    HostM.Keeps R (Loader.loadStub missing requests path dimension) := by
  refine .bind (.modify fun h => admits.asked h _) fun _ => ?_
  split
  · exact .pure
  · exact admits.create (Loader.whole_stubData path dimension)

theorem load (path : String) (dimension : TextureDimension) :
    HostM.Keeps R (Loader.load path dimension) := by
  refine .bind .get fun h => ?_
  split
  · exact admits.loadStub _ _ path dimension
  · exact admits.loadImage _ path dimension

theorem free (index : Nat) : Work.Keeps R (TextureTable.free index) := by
  refine .focus (.bind .get fun s => ?_)
  split
  · exact .bind .set fun _ => .pure
  · exact .bind (.lift (admits.report rfl rfl)) fun _ => .pure
  · exact .bind (.lift (admits.report rfl rfl)) fun _ => .pure

theorem ensureDefault (i : Nat) (slot : DefaultSlot) :
    Attempt.Keeps R (TextureTable.ensureDefault i slot) := by
  unfold TextureTable.ensureDefault
  split
  · exact .bind (.ofDevice (admits.create (TextureData.whole_white _))) fun _ => .modify
  · exact .pure

theorem ensureDefaults : Attempt.Keeps R TextureTable.ensureDefaults := by
  have from' (slots : List DefaultSlot) (i : Nat) : Attempt.Keeps R (ensureFrom i slots) := by
    induction slots generalizing i with
    | nil => exact .pure
    | cons slot rest ih => exact .bind (admits.ensureDefault i slot) fun _ => ih (i + 1)
  exact .bind .get fun _ => from' _ 0

theorem fill (index : Nat) (path : String) (dimension : TextureDimension) :
    Work.Keeps R (TextureTable.fill index path dimension) := by
  refine .bind (.lift (admits.load path dimension)) fun r => ?_
  split
  · exact .bind (admits.free index) fun _ => .bind (.lift (admits.report rfl rfl)) fun _ => .pure
  · exact .bind .modify fun _ => .bind .get fun _ =>
      .bind (.lift (admits.report rfl rfl)) fun _ => .pure

theorem acquire (path : String) (dimension : TextureDimension) :
    Work.Keeps R (TextureTable.acquire path dimension) := by
  refine .bind .get fun table => ?_
  split
  · exact .pure
  · split
    · exact .bind (.lift (admits.report rfl rfl)) fun _ => .pure
    · exact .bind .set fun _ => admits.fill _ path dimension

theorem freeAll (indices : List Nat) : Work.Keeps R (TextureTable.freeAll indices) := by
  induction indices with
  | nil => exact .pure
  | cons index rest ih => exact .bind (admits.free index) fun _ => ih

theorem release (path : String) : Work.Keeps R (TextureTable.release path) :=
  .bind .get fun _ => .bind .set fun _ => .bind (admits.freeAll _) fun _ => .pure

theorem clear : Work.Keeps R TextureTable.clear :=
  .bind .get fun _ => .bind .set fun _ => .bind (admits.freeAll _) fun _ => admits.freeAll _

end Host.AdmitsTextures

/-- Work on textures leaves constant buffers alone. -/
theorem Host.keepsBuffers_textures : AdmitsTextures KeepsBuffers where
  report := fun other _ => report_keepsBuffers other
  overflow := fun _ => report_keepsBuffers rfl _
  asked _ _ := ⟨⟨⟨.refl _, .refl _, .refl _⟩, rfl⟩, rfl, rfl, rfl⟩
  create _ := TextureData.create_keeps _

namespace TextureTable

theorem ensureDefaults_keeps : Attempt.Keeps Host.KeepsBuffers ensureDefaults :=
  Host.keepsBuffers_textures.ensureDefaults

theorem acquire_keeps (path : String) (dimension : TextureDimension) :
    Work.Keeps Host.KeepsBuffers (acquire path dimension) :=
  Host.keepsBuffers_textures.acquire path dimension

theorem release_keeps (path : String) : Work.Keeps Host.KeepsBuffers (release path) :=
  Host.keepsBuffers_textures.release path

theorem clear_keeps : Work.Keeps Host.KeepsBuffers clear := Host.keepsBuffers_textures.clear

end TextureTable

end SurfaceShading
