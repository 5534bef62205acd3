/-
  What is uploaded. Each texture that a table of textures has made is uploaded once, in the order
  in which they were made, with the width and the height that it was made with, and the data has
  as many bytes as such a texture takes (`TextureTable.uploads_whole`).

  Flat data becomes a cube exactly if its height is six widths. Other data is refused, as long as
  six widths have no more than 32 bits. Otherwise the program breaks off
  (`TextureData.wide_data_overflows`), and so does a run that loads such an image as a cube; no
  other run does.
-/
import SurfaceShading.Proofs.World.Textures
import Mathlib.Data.List.Forall2

namespace SurfaceShading

/-! ## Uploads of textures -/

/-- An upload into a texture that was made, with the data that the texture takes. -/
structure Upload.Fills (upload : Upload) (made : Handle × TextureDescriptor) : Prop where
  texture : upload.texture = made.1
  width : upload.width = made.2.width
  height : upload.height = made.2.height
  bytes : upload.data.length = made.2.byteCount

/-- The textures that the device made are those that were uploaded. -/
def Host.Filled (h : Host) : Prop := List.Forall₂ Upload.Fills h.commands.uploads h.device.textures

/-- Textures were made, and for each of them there was one upload. -/
def Host.Fills (before after : Host) : Prop := ∃ uploads made,
  after.commands.uploads = before.commands.uploads ++ uploads ∧
    after.device.textures = before.device.textures ++ made ∧ List.Forall₂ Upload.Fills uploads made

namespace Host

variable {h h' : Host}

/-- Nothing was made and nothing uploaded. -/
theorem Fills.of_same (uploads : h'.commands.uploads = h.commands.uploads)
    (textures : h'.device.textures = h.device.textures) : h.Fills h' :=
  ⟨[], [], by rw [uploads, List.append_nil], by rw [textures, List.append_nil], .nil⟩

instance : Std.Refl Fills := ⟨fun _ => .of_same rfl rfl⟩

instance : Trans Fills Fills Fills where
  trans := by
    rintro h h₁ h₂ ⟨uploads, made, isUploads, isMade, fills⟩
      ⟨uploads', made', isUploads', isMade', fills'⟩
    refine ⟨uploads ++ uploads', made ++ made', ?_, ?_, List.rel_append fills fills'⟩
    · rw [isUploads', isUploads, List.append_assoc]
    · rw [isMade', isMade, List.append_assoc]

theorem Filled.fills (filled : h.Filled) (fills : h.Fills h') : h'.Filled := by
  obtain ⟨uploads, made, isUploads, isMade, more⟩ := fills
  rw [Filled, isUploads, isMade]
  exact List.rel_append filled more

end Host

/-- A texture that is made is filled at once. -/
theorem TextureData.create_fills {t : TextureData} (whole : t.Whole) :
    HostM.Keeps Host.Fills t.create := fun _ =>
  t.create_rule (fun _ => .of_same rfl rfl)
    ⟨[_], [_], rfl, rfl, .cons ⟨rfl, rfl, rfl, whole⟩ .nil⟩

theorem Host.fills_textures : AdmitsTextures Fills where
  report _ _ := .modify fun _ => .of_same rfl rfl
  overflow _ := .of_same rfl rfl
  asked _ _ := .of_same rfl rfl
  create := TextureData.create_fills

/-! ## Faults -/

/-- The files stay, and the program breaks off only if one of them holds an image too wide. -/
structure Host.Endures (before after : Host) : Prop where
  disk : after.disk = before.disk
  faults : after.brokenOff = true → before.brokenOff = true ∨ before.disk.HoldsWide

namespace Host

instance : Std.Refl Endures := ⟨fun _ => ⟨rfl, .inl⟩⟩

instance : Trans Endures Endures Endures where
  trans first second := by
    refine ⟨second.disk.trans first.disk, fun broken => ?_⟩
    rcases second.faults broken with earlier | wide
    · exact first.faults earlier
    · exact .inr (first.disk ▸ wide)

/-- The reports that were added are no faults. -/
theorem Endures.of_events {h h' : Host} {added : List Event} (disk : h'.disk = h.disk)
    (events : h'.events = h.events ++ added) (own : added.any Event.isFault = false) :
    h.Endures h' := by
  refine ⟨disk, fun broken => .inl ?_⟩
  rwa [brokenOff, events, List.any_append, own, Bool.or_false] at broken

end Host

theorem TextureData.create_endures (t : TextureData) : HostM.Keeps Host.Endures t.create := fun _ =>
  t.create_rule (fun _ => .of_events rfl (List.append_nil _).symm rfl) (.of_events rfl rfl rfl)

theorem Host.endures_textures : AdmitsTextures Endures where
  report _ other _ := .of_events rfl rfl (by rw [List.any_cons, other]; rfl)
  overflow wide := ⟨rfl, fun _ => .inr wide⟩
  asked _ _ := ⟨rfl, .inl⟩
  create _ := TextureData.create_endures _

theorem Disk.not_holdsWide_empty : ¬ Disk.HoldsWide .empty := by
  rintro ⟨path, t, is, -⟩
  unfold TextureData.ofFile at is
  dsimp only at is
  split at is
  · next bytes _ read =>
    obtain ⟨place, located, isFile⟩ := except_bind_eq_ok.1 read
    obtain ⟨steps, -, walk⟩ := except_bind_eq_ok.1 located
    cases follow_reached walk with
    | directory _ => cases isFile
    | file _ _ there => cases there
    | absent _ _ _ => cases isFile
  · cases is

/-! ## Requests to a table -/

namespace TextureTable

/-- A request to a table, or a change outside: files come and go, another loader is used, the
device decides otherwise. -/
inductive Turn where
  | outside (loader : Loader) (disk : Disk)
      (policy : Nat → DeviceRequest → Option DeviceError)
  | ensureDefaults
  | acquire (path : String) (dimension : TextureDimension)
  | release (path : String)
  | clear

/-- A table and the world after a turn. -/
def turn (s : TextureTable × Host) : Turn → TextureTable × Host
  | .outside loader disk policy =>
    (s.1, { s.2 with
      loader := loader
      disk := disk
      device := { s.2.device with policy := policy } })
  | .ensureDefaults =>
    let ((_, table), h) := (ensureDefaults.run.run s.1).run s.2
    (table, h)
  | .acquire path dimension =>
    let ((_, table), h) := ((acquire path dimension).run s.1).run s.2
    (table, h)
  | .release path =>
    let ((_, table), h) := ((release path).run s.1).run s.2
    (table, h)
  | .clear =>
    let ((_, table), h) := (clear.run s.1).run s.2
    (table, h)

/-- A new table of some capacity in a new world, and what became of both after some turns. -/
def serve (capacity base : Nat) (turns : List Turn) : TextureTable × Host :=
  turns.foldl turn (new capacity base, .new (.images none) .empty)

/-- Some disk that is brought in holds an image too wide. -/
def MeetsWide (turns : List Turn) : Prop := ∃ loader disk policy,
  Turn.outside loader disk policy ∈ turns ∧ disk.HoldsWide

theorem turn_fills (s : TextureTable × Host) (t : Turn) : s.2.Fills (turn s t).2 := by
  cases t with
  | outside loader disk policy => exact .of_same rfl rfl
  | ensureDefaults => exact Host.fills_textures.ensureDefaults s.1 s.2
  | acquire path dimension => exact Host.fills_textures.acquire path dimension s.1 s.2
  | release path => exact Host.fills_textures.release path s.1 s.2
  | clear => exact Host.fills_textures.clear s.1 s.2

/-- A turn leaves the files as they are and breaks off only for an image among them, or it brings
other files. -/
theorem turn_endures (s : TextureTable × Host) (t : Turn) :
    s.2.Endures (turn s t).2 ∨
      ∃ loader disk policy, t = .outside loader disk policy ∧ (turn s t).2.disk = disk ∧
        (turn s t).2.brokenOff = s.2.brokenOff := by
  cases t with
  | outside loader disk policy => exact .inr ⟨loader, disk, policy, rfl, rfl, rfl⟩
  | ensureDefaults => exact .inl (Host.endures_textures.ensureDefaults s.1 s.2)
  | acquire path dimension => exact .inl (Host.endures_textures.acquire path dimension s.1 s.2)
  | release path => exact .inl (Host.endures_textures.release path s.1 s.2)
  | clear => exact .inl (Host.endures_textures.clear s.1 s.2)

theorem turns_fills (s : TextureTable × Host) (turns : List Turn) :
    s.2.Fills (turns.foldl turn s).2 := by
  induction turns generalizing s with
  | nil => exact Std.Refl.refl s.2
  | cons t turns ih => exact Trans.trans (turn_fills s t) (ih (turn s t))

/-- A run breaks off only if it meets an image too wide. -/
theorem wide_of_brokenOff (s : TextureTable × Host) (turns : List Turn)
    (broken : (turns.foldl turn s).2.brokenOff = true) :
    s.2.brokenOff = true ∨ s.2.disk.HoldsWide ∨ MeetsWide turns := by
  induction turns generalizing s with
  | nil => exact .inl broken
  | cons t turns ih =>
    rcases ih (turn s t) broken with now | wide | ⟨loader, disk, policy, mem, wide⟩
    · rcases turn_endures s t with endures | ⟨_, _, _, -, -, same⟩
      · exact (endures.faults now).imp_right .inl
      · exact .inl (same ▸ now)
    · rcases turn_endures s t with endures | ⟨loader, disk, policy, rfl, is, -⟩
      · exact .inr (.inl (endures.disk ▸ wide))
      · exact .inr (.inr ⟨loader, disk, policy, List.mem_cons_self, is ▸ wide⟩)
    · exact .inr (.inr ⟨loader, disk, policy, List.mem_cons_of_mem t mem, wide⟩)

end TextureTable

/-! ## Strips -/

namespace TextureData

/-- What becomes of data that is taken for a cube. A cube stays as it is. Flat data is a strip of
six faces exactly if its height is six widths; a strip keeps its bytes, and all else is refused
with its measures, unless six widths have more than 32 bits. Then there is no answer. -/
structure Reshapes (t : TextureData) : Prop where
  cube : t.dimension = .cube → t.toCube = some (.ok t)
  strip : t.dimension = .d2 → ∀ c, t.toCube = some (.ok c) ↔
    t.height.toNat = 6 * t.width.toNat ∧ c = { t with height := t.width, dimension := .cube }
  refused : t.dimension = .d2 → ∀ e, t.toCube = some (.error e) ↔
    t.Narrow ∧ t.height.toNat ≠ 6 * t.width.toNat ∧
      e = .textureLoad t.name (.notCubeStrip t.width t.height)
  overflow : t.toCube = none ↔ t.dimension = .d2 ∧ ¬ t.Narrow

theorem reshapes (t : TextureData) : t.Reshapes where
  cube is := by rw [toCube, is]
  strip flat _ := toCube_eq_ok flat
  refused flat _ := toCube_eq_error flat
  overflow := toCube_eq_none

end TextureData

/-- Data of an image in some shape. It has the bytes of the image, and they are what a texture of
its measures takes. -/
structure TextureData.Shows (t : TextureData) (image : Image) (dimension : TextureDimension) :
    Prop where
  dimension : t.dimension = dimension
  width : t.width = image.width
  data : t.data = image.data
  whole : t.Whole

theorem TextureData.shows_of_shaped {image : Image} (complete : image.Complete) {name : String}
    {dimension : TextureDimension} {t : TextureData}
    (shape : (ofImage image name).shaped dimension = some (.ok t)) : t.Shows image dimension := by
  have whole := whole_of_shaped rfl (whole_ofImage complete name) shape
  cases dimension with
  | d2 =>
    cases shape
    exact ⟨rfl, rfl, rfl, whole⟩
  | cube =>
    have cube : (ofImage image name).toCube = some (.ok t) := shape
    obtain rfl := ((toCube_eq_ok rfl).1 cube).2
    exact ⟨rfl, rfl, rfl, whole⟩

/-- **Uploads have the bytes that their textures take.** Whatever a table was asked for, each of
the textures that were made was uploaded, and the data is as long as width, height and layers say.
White textures are, and so is what a loader makes of an image with all of its bytes. Flat data is
taken for a cube exactly if its height is six widths, and all other is refused, as long as six
widths have no more than 32 bits. A run breaks off only if it meets an image that is wider. -/
theorem TextureTable.uploads_whole (capacity base : Nat) (turns : List Turn) :
    (serve capacity base turns).2.Filled ∧
      ((serve capacity base turns).2.brokenOff = true → MeetsWide turns) ∧
      (∀ dimension, (TextureData.white dimension).Whole) ∧
      (∀ (image : Image) (name : String) (dimension : TextureDimension) (t : TextureData),
        image.Complete → (TextureData.ofImage image name).shaped dimension = some (.ok t) →
          t.Shows image dimension) ∧
      ∀ t : TextureData, t.Reshapes := by
  have start : Host.Filled (.new (.images none) .empty) := .nil
  refine ⟨start.fills (turns_fills (new capacity base, _) turns), fun broken => ?_,
    TextureData.whole_white, fun image name dimension t complete shape =>
      TextureData.shows_of_shaped complete shape, TextureData.reshapes⟩
  rcases wide_of_brokenOff _ turns broken with before | wide | meets
  · cases before
  · exact absurd wide Disk.not_holdsWide_empty
  · exact meets

/-- The files of a sky, six texels one below the other. -/
def skyFiles : Disk := .ofFiles [] [("sky.ppm", Text.utf8 "P6 1 6 255\n" ++ List.replicate 18 7)]

/-- The file of an image without rows, wider than any strip. -/
def wideFiles : Disk := .ofFiles [] [("wide.ppm", Text.utf8 "P6 715827883 0 255\n")]

/-- A sky that is loaded as a cube after the default textures, and an image at which a run breaks
off. -/
theorem TextureTable.sky_uploaded_wide_overflows :
    let turns : List Turn := [.outside (.images none) skyFiles Device.acceptAll, .ensureDefaults,
      .acquire "sky.ppm" .cube]
    let h := (serve 8 16 turns).2
    let overflowing : List Turn := [.outside (.images none) wideFiles Device.acceptAll,
      .acquire "wide.ppm" .cube]
    h.device.textures.map (fun made => (made.2.dimension, made.2.byteCount)) =
        [(.d2, 4), (.cube, 24), (.cube, 24)] ∧ h.Filled ∧ h.brokenOff = false ∧
      (∃ t, (Image.mk 1 6 (List.replicate 24 7)).Complete ∧
        (TextureData.ofImage ⟨1, 6, List.replicate 24 7⟩ "sky.ppm").shaped .cube = some (.ok t) ∧
          t.Shows ⟨1, 6, List.replicate 24 7⟩ .cube) ∧
      (serve 8 16 overflowing).2.brokenOff = true ∧ MeetsWide overflowing := by
  intro turns h overflowing
  obtain ⟨filled, -, -, shows, -⟩ := uploads_whole 8 16 turns
  have broken : (serve 8 16 overflowing).2.brokenOff = true := by decide +kernel
  exact ⟨by decide +kernel, filled, by decide +kernel, ⟨_, rfl, rfl, shows _ _ _ _ rfl rfl⟩, broken,
    (uploads_whole 8 16 overflowing).2.1 broken⟩

/-- Data that is no strip of six faces, of a width that six times has more than 32 bits. -/
def wideData : TextureData := ⟨715827883, 2, .rgba8UnormSrgb, .d2, [], "strip"⟩

/-- Such data is not refused: there is no answer to whether it is a strip. -/
theorem TextureData.wide_data_overflows :
    wideData.height.toNat ≠ 6 * wideData.width.toNat ∧ wideData.toCube = none ∧
      ¬ ∀ t : TextureData, t.dimension = .d2 → ∃ answer, t.toCube = some answer ∧
        ((∃ c, answer = .ok c) ↔ t.height.toNat = 6 * t.width.toNat) := by
  have overflow : wideData.toCube = none := toCube_eq_none.2 ⟨rfl, Nat.not_lt.2 (by decide)⟩
  refine ⟨by decide, overflow, fun answers => ?_⟩
  obtain ⟨answer, is, -⟩ := answers wideData rfl
  exact nomatch overflow.symm.trans is

end SurfaceShading
