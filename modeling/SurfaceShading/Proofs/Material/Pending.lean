/-
  Textures that wait for their slot. A path that is set has no slot until it is resolved; a
  material with such a path is pending, and its flag says so exactly (`Material.Tracked`). All
  work on a material keeps this, answered with an error or not, and with it that the device has
  of a clean material what it packs; and it leaves alone what other materials have on the device
  (`Material.Worked`).
-/
import SurfaceShading.Proofs.Material.Settings

namespace SurfaceShading.Material

variable {m m' : Material} {h h' : Host} {d d' : Device}

/-! ## The flag -/

/-- Some texture parameter has a path and no slot. -/
def Unindexed (m : Material) : Prop :=
  ∃ name path, m.texturePaths.get? name = some path ∧ m.textureIndices.get? name = none

/-- The material holds only what its shader takes, and is marked as pending exactly if some path
has no slot. -/
structure Tracked (m : Material) : Prop where
  fits : m.Fits m.shader
  exact : m.pending = true ↔ m.Unindexed

theorem tracked_new (name : String) (object : ShaderId) (shader : Shader) :
    (new name object shader).Tracked where
  fits := fits_new name object shader
  exact := ⟨nofun, fun ⟨_, _, is, _⟩ => nomatch is⟩

/-- The same material later on, with the slots of its textures and the flag as they were. -/
structure Alike (m m' : Material) : Prop extends Becomes m m' where
  textureIndices : m'.textureIndices = m.textureIndices
  pending : m'.pending = m.pending

theorem Tracked.alike (tracked : m.Tracked) (alike : Alike m m') : m'.Tracked where
  fits := by
    rw [alike.shader]
    exact alike.toBecomes.refits _ tracked.fits
  exact := by
    unfold Unindexed
    rw [alike.pending, alike.texturePaths, alike.textureIndices]
    exact tracked.exact

theorem setValue_tracked {name : String} {value : Value} (set : m.setValue name value = .ok m')
    (tracked : m.Tracked) : m'.Tracked := by
  have fits := setValue_refits set _ tracked.fits
  rw [eq_of_setValue set] at fits ⊢
  exact ⟨fits, tracked.exact⟩

/-- A path that is set is one that waits. -/
theorem setTexturePath_tracked {name path : String} (set : m.setTexturePath name path = .ok m')
    (tracked : m.Tracked) : m'.Tracked := by
  have fits := setTexturePath_refits set _ tracked.fits
  rw [eq_of_setTexturePath set] at fits ⊢
  refine ⟨fits, iff_of_true rfl ⟨name, path, OrderedMap.get?_insert_self _ _ _, ?_⟩⟩
  rw [OrderedMap.get?_erase, if_pos rfl]

/-! ## Resolving -/

/-- A name that has no slot after resolving had none before, and was not to be resolved. -/
theorem resolve_indexes (parameters : List (String × String × TextureDimension)) (m : Material)
    (table : TextureTable) (h : Host) :
    Work.Ends (resolve parameters) (m, table) h fun _ s' _ =>
      ∀ name, s'.1.textureIndices.get? name = none →
        m.textureIndices.get? name = none ∧ ∀ p ∈ parameters, p.1 ≠ name := by
  -- A parameter that has no slot so far and is not among the rest gets none.
  refine (resolve_rule (P := fun rest m₁ _ _ => ∀ name, m₁.textureIndices.get? name = none →
    (∀ p ∈ rest, p.1 ≠ name) →
      m.textureIndices.get? name = none ∧ ∀ p ∈ parameters, p.1 ≠ name)
    ?_ fun _ none others => ⟨none, others⟩).mono
      fun _ _ _ left name none => left name none fun _ mem => nomatch mem
  refine fun left => HostM.Ends.of_forall fun _ _ name none others => ?_
  rw [OrderedMap.get?_insert] at none
  split at none
  · cases none
  · next other => exact left name none (List.forall_mem_cons.2 ⟨Ne.symm other, others⟩)

/-- Every path without a slot is to be resolved, since its parameter is a texture. -/
theorem exists_unresolved (fits : m.Fits m.shader) {name path : String}
    (is : m.texturePaths.get? name = some path) (none : m.textureIndices.get? name = none) :
    ∃ p ∈ m.unresolved, p.1 = name := by
  obtain ⟨q, found, texture⟩ := fits.paths name path is
  obtain ⟨dimension, shape⟩ := Parameter.dimension_of_texture texture
  refine ⟨(name, path, dimension), List.mem_filterMap.2 ⟨(name, path), ?_, ?_⟩, rfl⟩
  · exact fits.sortedPaths.get?_eq_some_iff.1 is
  · simp [OrderedMap.contains, none, found, shape]

/-- Once its textures are resolved, every path of a material has a slot. -/
theorem resolve_tracked (fits : m.Fits m.shader) (table : TextureTable) (h : Host) :
    Work.Ends (resolve m.unresolved) (m, table) h fun _ s' _ =>
      ∃ indices, s'.1 = { m with textureIndices := indices } ∧
        Tracked { m with textureIndices := indices, pending := false } := by
  refine ((resolve_same m.unresolved m table h).and
    (resolve_indexes m.unresolved m table h)).mono ?_
  rintro _ ⟨_, table₁⟩ h₁ ⟨⟨indices, rfl⟩, left⟩
  refine ⟨indices, rfl, ⟨fits.made, fits.values, fits.paths, fits.sortedValues, fits.sortedPaths⟩,
    nofun, ?_⟩
  rintro ⟨name, path, is, none⟩
  obtain ⟨before, others⟩ := left name none
  obtain ⟨p, mem, same⟩ := exists_unresolved fits is before
  exact absurd same (others p mem)

/-! ## Work -/

/-- The flag of the material is exact, and the device has of it what it packs, if it is clean. -/
structure Tended (m : Material) (d : Device) : Prop where
  tracked : m.Tracked
  coherent : m.Coherent d

theorem tended_new (name : String) (object : ShaderId) (shader : Shader) (d : Device) :
    (new name object shader).Tended d :=
  ⟨tracked_new name object shader, coherent_new name object shader d⟩

theorem Backed.holds (backed : m.Backed d) : m.Holds d := fun buffer is =>
  let ⟨contents, live, _⟩ := backed.live buffer is
  ⟨contents, live⟩

/-- A material is tended as long as its own buffer stays as it is. -/
theorem Tended.congr (tended : m.Tended d) (same : ∀ buffer, m.buffer = some buffer →
    d'.buffers.get? buffer = d.buffers.get? buffer) : m.Tended d' where
  tracked := tended.tracked
  coherent := {
    live := fun buffer is => by
      rw [same buffer is]
      exact tended.coherent.live buffer is
    made := tended.coherent.made
    clean := fun clean buffer is => by
      rw [same buffer is]
      exact tended.coherent.clean clean buffer is }

/-- Work on a material that is tended in the end. It trades its own buffer, and leaves the others
of the device with what is in them. -/
structure Worked (m : Material) (h : Host) (m' : Material) (h' : Host) : Prop where
  trades : Device.Trades m.buffer h.device m'.buffer h'.device
  others : ∀ buffer, h.device.IsLive buffer → m.buffer ≠ some buffer →
    h'.device.buffers.get? buffer = h.device.buffers.get? buffer
  name : m'.name = m.name
  tended : m'.Tended h'.device

/-- What came before, and left the buffers alone as it did the material. -/
theorem Worked.after {m₁ : Material} {h₁ : Host} (worked : Worked m₁ h₁ m' h')
    (holds : m.Holds h.device) (tidy : h.device.Tidy) (spares : h.Spares h₁) (same : Same m m₁) :
    Worked m h m' h' where
  trades := (spares.keepsLive.trades holds).trans (same.buffer ▸ worked.trades) tidy
  others buffer live other := by
    rw [worked.others buffer ((spares.keepsLive.live buffer).2 live) (same.buffer ▸ other),
      spares.buffers]
  name := worked.name.trans same.name
  tended := worked.tended

/-- A setting of the material alone. -/
theorem Worked.ofMarks (tended : m.Tended h.device) (same : Same m m') (marks : Marks m m')
    (tracked : m'.Tracked) : Worked m h m' h where
  trades := by
    rw [same.buffer]
    exact Host.KeepsLive.trades (Std.Refl.refl h) tended.coherent.holds
  others _ _ _ := rfl
  name := same.name
  tended := ⟨tracked, tended.coherent.marks marks rfl⟩

theorem BufferMade.alike {r : Except Error Unit} (made : BufferMade m h r m' h') : Alike m m' := by
  refine ⟨made.becomes, ?_, ?_⟩ <;> cases made <;> rfl

theorem createBuffer_works (tended : m.Tended h.device) (tidy : h.device.Tidy) :
    Attempt.Ends createBuffer m h fun _ m' h' => Worked m h m' h' := by
  refine ((createBuffer_ends m h).and (createBuffer_equips tended.coherent.holds)).mono ?_
  rintro r m' h' ⟨made, equips⟩
  refine ⟨equips.trades, fun buffer live other => ?_, equips.name,
    tended.tracked.alike made.alike, (tended.coherent.bufferMade made).1⟩
  have different := equips.trades.kept tidy live other
  cases made with
  | unneeded _ => rfl
  | refused _ _ kept => rw [kept.buffers]
  | made _ _ buffers _ _ _ =>
    rw [buffers, OrderedMap.get?_insert_of_ne]
    rintro rfl
    exact different rfl

theorem Updated.alike {r : Except Error Unit} (updated : Updated m h r m' h')
    (becomes : Becomes m m') : Alike m m' := by
  refine ⟨becomes, ?_, ?_⟩ <;> cases updated <;> rfl

/-- An update that does not fail leaves the material clean. -/
theorem update_works (backed : m.Backed h.device) (tidy : h.device.Tidy) (tracked : m.Tracked) :
    Attempt.Ends update m h fun r m' h' => Worked m h m' h' ∧ Alike m m' ∧
      (r = .ok () → m'.dirty = false) := by
  refine ((update_ends backed).and
    ((update_equips backed.holds tidy).and (update_becomes m h))).mono ?_
  rintro r m' h' ⟨updated, equips, becomes⟩
  have alike : Alike m m' := updated.alike becomes
  refine ⟨⟨equips.trades, fun buffer live other => ?_, equips.name, tracked.alike alike,
    (updated.carries backed.made).1⟩, alike, fun ok => ?_⟩
  · have different := equips.trades.kept tidy live other
    cases updated with
    | refused _ _ kept => rw [kept.buffers]
    | written _ written => exact written.others buffer different
  · cases updated with
    | refused _ _ _ => cases ok
    | written _ _ => rfl

theorem bind_works (slot : UInt32) (tended : m.Tended h.device) (tidy : h.device.Tidy) :
    Attempt.Ends (bind slot) m h fun _ m' h' => Worked m h m' h' := by
  refine bind_rule (Q := fun _ => Worked m h)
    (fun _ => (update_works tended.coherent.toBacked tidy tended.tracked).mono
      fun _ _ _ done => done.1)
    (fun _ _ => .ofMarks tended (Std.Refl.refl m) (Std.Refl.refl m) tended.tracked)
    (fun _ _ _ => id) ?_
  rintro m₁ h₁ h' worked bound
  exact ⟨bound.device ▸ worked.trades, fun buffer live other =>
    bound.device ▸ worked.others buffer live other, worked.name, bound.device ▸ worked.tended⟩

/-- Loading its textures leaves no path of a material without a slot; if that does not fail, the
material is clean. -/
theorem loadTextures_works (table : TextureTable) (tended : m.Tended h.device)
    (tidy : h.device.Tidy) :
    Attempt.Ends loadTextures (m, table) h fun r s' h' => Worked m h s'.1 h' ∧
      s'.1.pending = false ∧ (r = .ok () → s'.1.dirty = false) := by
  refine ends_loadTextures.2 (((resolve_tracked tended.tracked.fits table h).and
    (resolve_keeps m.unresolved (m, table) h)).mono ?_)
  rintro _ ⟨_, table₁⟩ h₁ ⟨⟨indices, rfl, tracked⟩, kept⟩
  -- The slots may have changed what is packed, so the buffer is there but no longer coherent.
  have backed : Backed { m with textureIndices := indices, pending := false } h₁.device :=
    ⟨kept.buffers ▸ tended.coherent.live, tended.coherent.made⟩
  refine (update_works backed (kept.toSpares.keepsLive.tidy tidy) tracked).mono ?_
  rintro r m' h' ⟨worked, alike, clean⟩
  exact ⟨worked.after tended.coherent.holds tidy kept.toSpares ⟨rfl, rfl, rfl⟩, alike.pending,
    clean⟩

/-! ## Settings -/

/-- What a setting changes: the material alone, whose flag stays exact. -/
structure Sets (m m' : Material) : Prop where
  same : Same m m'
  marks : Marks m m'
  tracked : m.Tracked → m'.Tracked

instance : Std.Refl Sets := ⟨fun m => ⟨Std.Refl.refl m, Std.Refl.refl m, id⟩⟩

instance : Trans Sets Sets Sets :=
  ⟨fun first second => ⟨Trans.trans first.same second.same, Trans.trans first.marks second.marks,
    second.tracked ∘ first.tracked⟩⟩

theorem setValue_sets {name : String} {value : Value} (set : m.setValue name value = .ok m') :
    Sets m m' := ⟨setValue_same set, setValue_marks set, setValue_tracked set⟩

theorem setTexturePath_sets {name path : String} (set : m.setTexturePath name path = .ok m') :
    Sets m m' := ⟨setTexturePath_same set, setTexturePath_marks set, setTexturePath_tracked set⟩

theorem Sets.worked (sets : Sets m m') (tended : m.Tended h.device) : Worked m h m' h :=
  .ofMarks tended sets.same sets.marks (sets.tracked tended.tracked)

/-- A material that takes the settings of a file and gets its buffer. -/
theorem applyFile_createBuffer_works (file : MaterialFile) (tended : m.Tended h.device)
    (tidy : h.device.Tidy) :
    Attempt.Ends (do
      Material.applyFile file
      Material.createBuffer : Attempt Material Unit) m h fun _ m' h' => Worked m h m' h' := by
  rw [Attempt.ends_bind, Attempt.ends_liftWork]
  refine ((applyFile_ends setValue_sets setTexturePath_sets file m h).and
    (applyFile_keeps file m h)).mono ?_
  rintro _ m₁ h₁ ⟨sets, kept⟩
  have tended₁ : m₁.Tended h₁.device :=
    (sets.worked tended).tended.congr fun _ _ => by rw [kept.buffers]
  refine (createBuffer_works tended₁ (kept.toSpares.keepsLive.tidy tidy)).mono ?_
  exact fun _ _ _ worked => worked.after tended.coherent.holds tidy kept.toSpares sets.same

end SurfaceShading.Material
