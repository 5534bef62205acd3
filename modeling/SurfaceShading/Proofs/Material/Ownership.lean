/-
  The buffer that a material owns. Work on a material trades the buffer that it owned for the one
  that it owns in the end, and no other buffer appears or is destroyed (`Device.Trades`); a
  material that is refused its buffer owns none (`Material.Equips`).
-/
import SurfaceShading.Proofs.Material.Buffer

namespace SurfaceShading

/-! ## Live buffers -/

namespace Device

/-- The device has the buffer. -/
def IsLive (d : Device) (buffer : Handle) : Prop :=
  ∃ contents, d.buffers.get? buffer = some contents

/-- No buffer has a handle that is still to be given. -/
def Tidy (d : Device) : Prop := ∀ buffer, d.IsLive buffer → buffer ≤ d.lastHandle

/-- Instead of one buffer, if any, there is another in the end, which is the same or new. -/
structure Trades (before : Option Handle) (d : Device) (after : Option Handle) (d' : Device) :
    Prop where
  live : ∀ buffer, d'.IsLive buffer ↔ d.IsLive buffer ∧ before ≠ some buffer ∨ after = some buffer
  fresh : ∀ buffer, after = some buffer →
    before = some buffer ∨ d.lastHandle < buffer ∧ buffer ≤ d'.lastHandle
  handles : d.lastHandle ≤ d'.lastHandle

namespace Trades

variable {d d' d'' : Device} {o o' o'' : Option Handle}

theorem held (trades : Trades o d o' d') (buffer : Handle) (is : o' = some buffer) :
    d'.IsLive buffer := (trades.live buffer).2 (.inr is)

theorem tidy (trades : Trades o d o' d') (tidy : d.Tidy)
    (held : ∀ buffer, o = some buffer → d.IsLive buffer) : d'.Tidy := by
  intro buffer live
  rcases (trades.live buffer).1 live with ⟨live, _⟩ | is
  · exact Nat.le_trans (tidy buffer live) trades.handles
  · rcases trades.fresh buffer is with was | ⟨_, le⟩
    · exact Nat.le_trans (tidy buffer (held buffer was)) trades.handles
    · exact le

/-- A new buffer was not there. -/
theorem kept (trades : Trades o d o' d') (tidy : d.Tidy) {buffer : Handle} (live : d.IsLive buffer)
    (other : o ≠ some buffer) : o' ≠ some buffer := fun is => by
  rcases trades.fresh buffer is with was | ⟨new, _⟩
  · exact other was
  · exact Nat.lt_irrefl _ (Nat.lt_of_lt_of_le new (tidy buffer live))

theorem trans (first : Trades o d o' d') (second : Trades o' d' o'' d'') (tidy : d.Tidy) :
    Trades o d o'' d'' where
  live buffer := by
    rw [second.live, first.live]
    constructor
    · rintro (⟨⟨live, other⟩ | is, other'⟩ | is)
      · exact .inl ⟨live, other⟩
      · exact absurd is other'
      · exact .inr is
    · rintro (⟨live, other⟩ | is)
      · exact .inl ⟨.inl ⟨live, other⟩, first.kept tidy live other⟩
      · exact .inr is
  fresh buffer is := by
    rcases second.fresh buffer is with was | ⟨new, le⟩
    · rcases first.fresh buffer was with was | ⟨new, le⟩
      · exact .inl was
      · exact .inr ⟨new, Nat.le_trans le second.handles⟩
    · exact .inr ⟨Nat.lt_of_le_of_lt first.handles new, le⟩
  handles := Nat.le_trans first.handles second.handles

end Trades

end Device

/-- The world goes on with the same live buffers. -/
structure Host.KeepsLive (before after : Host) : Prop where
  live : ∀ buffer, after.device.IsLive buffer ↔ before.device.IsLive buffer
  handles : before.device.lastHandle ≤ after.device.lastHandle

namespace Host

instance : Std.Refl KeepsLive := ⟨fun _ => ⟨fun _ => Iff.rfl, Nat.le_refl _⟩⟩

instance : Trans KeepsLive KeepsLive KeepsLive :=
  ⟨fun first second => ⟨fun buffer => (second.live buffer).trans (first.live buffer),
    Nat.le_trans first.handles second.handles⟩⟩

theorem Spares.keepsLive {h h' : Host} (spares : h.Spares h') : h.KeepsLive h' where
  live buffer := by rw [Device.IsLive, Device.IsLive, spares.buffers]
  handles := spares.device.handles

theorem KeepsLive.tidy {h h' : Host} (keeps : h.KeepsLive h') (tidy : h.device.Tidy) :
    h'.device.Tidy := fun buffer live =>
  Nat.le_trans (tidy buffer ((keeps.live buffer).1 live)) keeps.handles

/-- Nothing is traded while the live buffers stay the same. -/
theorem KeepsLive.trades {h h' : Host} (keeps : h.KeepsLive h') {o : Option Handle}
    (held : ∀ buffer, o = some buffer → h.device.IsLive buffer) :
    h.device.Trades o o h'.device where
  live buffer := by
    rw [keeps.live]
    constructor
    · intro live
      by_cases is : o = some buffer
      · exact .inr is
      · exact .inl ⟨live, is⟩
    · rintro (⟨live, _⟩ | is)
      · exact live
      · exact held buffer is
  fresh _ is := .inl is
  handles := keeps.handles

end Host

namespace Device

theorem isLive_insert {d : Device} {buffer other : Handle} {contents : List UInt8} :
    { d with buffers := d.buffers.insert buffer contents }.IsLive other ↔
      other = buffer ∨ d.IsLive other := by
  unfold IsLive
  dsimp only
  rw [OrderedMap.get?_insert]
  by_cases same : other = buffer
  · simp [same]
  · simp [same]

theorem isLive_erase {d : Device} {buffer other : Handle} :
    { d with buffers := d.buffers.erase buffer }.IsLive other ↔
      d.IsLive other ∧ other ≠ buffer := by
  unfold IsLive
  dsimp only
  rw [OrderedMap.get?_erase]
  by_cases same : other = buffer
  · simp [same]
  · simp [same]

/-- A buffer that is made has a handle of its own. -/
theorem createBuffer_trades (descriptor : BufferDescriptor) (h : Host) :
    HostM.Ends (createBuffer descriptor) h fun r h' =>
      (∃ e, r = .error e ∧ h.KeepsLive h') ∨
      ∃ buffer, r = .ok buffer ∧ Trades none h.device (some buffer) h'.device := by
  refine (HostM.ends_bind _ _).2 ((ask_keeps (.buffer descriptor) h).mono ?_)
  intro refusal h₁ asked
  cases refusal with
  | some e => exact .inl ⟨e, rfl, asked.keepsLive⟩
  | none =>
    have kept := asked.keepsLive
    refine .inr ⟨h₁.device.lastHandle + 1, rfl, fun other => ?_, fun other is => .inr ?_, ?_⟩
    · refine (isLive_insert (d := h₁.device)).trans ?_
      rw [kept.live]
      simp [or_comm, eq_comm]
    · cases is
      exact ⟨Nat.lt_succ_of_le kept.handles, Nat.le_refl _⟩
    · exact Nat.le_succ_of_le kept.handles

theorem writeBuffer_keepsLive (buffer : Handle) (offset : Nat) (data : List UInt8) :
    HostM.Keeps Host.KeepsLive (writeBuffer buffer offset data) := by
  intro h
  unfold writeBuffer
  rw [HostM.ends_bind, HostM.ends_get]
  split
  · exact (report_keeps _ h).keepsLive
  · next contents there =>
    refine ⟨fun other => (isLive_insert (d := h.device)).trans ?_, Nat.le_refl _⟩
    exact or_iff_right_of_imp fun same => ⟨contents, same ▸ there⟩

end Device

namespace Material

variable {m m' : Material} {h h' : Host}

/-- A material of the same name, shader and buffer. -/
structure Same (m m' : Material) : Prop where
  name : m'.name = m.name
  shader : m'.shader = m.shader
  buffer : m'.buffer = m.buffer

instance : Std.Refl Same := ⟨fun _ => ⟨rfl, rfl, rfl⟩⟩

instance : Trans Same Same Same :=
  ⟨fun first second => ⟨second.name.trans first.name, second.shader.trans first.shader,
    second.buffer.trans first.buffer⟩⟩

theorem setValue_same {name : String} {value : Value} (set : m.setValue name value = .ok m') :
    Same m m' := by
  rw [eq_of_setValue set]
  exact ⟨rfl, rfl, rfl⟩

theorem setTexturePath_same {name path : String} (set : m.setTexturePath name path = .ok m') :
    Same m m' := by
  rw [eq_of_setTexturePath set]
  exact ⟨rfl, rfl, rfl⟩

/-- The buffer that a material owns, if any, is there. -/
def Holds (m : Material) (d : Device) : Prop := ∀ buffer, m.buffer = some buffer → d.IsLive buffer

/-- Work on a material after which it owns the buffer that it has. If the work fails it has none,
for want of one; if it does not, it has one, unless no bytes are to be kept in it. -/
structure Equips (m : Material) (h : Host) (r : Except Error Unit) (m' : Material) (h' : Host) :
    Prop where
  trades : Device.Trades m.buffer h.device m'.buffer h'.device
  name : m'.name = m.name
  shader : m'.shader = m.shader
  failed : ∀ e, r = .error e → m.buffer = none ∧ m'.buffer = none ∧ m.shader.bufferSize ≠ 0
  done : r = .ok () → m.shader.bufferSize ≠ 0 → m'.buffer ≠ none

/-- Work on a material that has a buffer, or needs none, does not fail. -/
theorem Equips.succeeds {r : Except Error Unit} (equips : Equips m h r m' h')
    (full : m.shader.bufferSize ≠ 0 → m.buffer ≠ none) : r = .ok () := by
  cases r with
  | ok _ => rfl
  | error e =>
    obtain ⟨missing, _, bytes⟩ := equips.failed e rfl
    exact absurd missing (full bytes)

/-- What follows and leaves the buffers alone, as it does the material. -/
theorem Equips.onward {m₁ : Material} {h₁ : Host} {r : Except Error Unit}
    (equips : Equips m h r m₁ h₁) (tidy : h.device.Tidy) (keeps : h₁.KeepsLive h')
    (same : Same m₁ m') : Equips m h r m' h' where
  trades := by
    rw [same.buffer]
    exact equips.trades.trans (keeps.trades equips.trades.held) tidy
  name := same.name.trans equips.name
  shader := same.shader.trans equips.shader
  failed e is := by
    rw [same.buffer]
    exact equips.failed e is
  done is := by
    rw [same.buffer]
    exact equips.done is

/-- What came before, and left the buffers alone as it did the material. -/
theorem Equips.after {m₁ : Material} {h₁ : Host} {r : Except Error Unit}
    (equips : Equips m₁ h₁ r m' h') (holds : m.Holds h.device) (tidy : h.device.Tidy)
    (keeps : h.KeepsLive h₁) (same : Same m m₁) : Equips m h r m' h' where
  trades := (keeps.trades holds).trans (same.buffer ▸ equips.trades) tidy
  name := equips.name.trans same.name
  shader := equips.shader.trans same.shader
  failed e is := by
    rw [← same.buffer, ← same.shader]
    exact equips.failed e is
  done is := by
    rw [← same.shader]
    exact equips.done is

theorem createBuffer_equips (holds : m.Holds h.device) :
    Attempt.Ends createBuffer m h (Equips m h) := by
  refine createBuffer_rule (fun there => ?_) fun none bytes => ?_
  · exact ⟨Host.KeepsLive.trades (Std.Refl.refl h) holds, rfl, rfl, nofun, fun _ => there⟩
  · refine (Device.createBuffer_trades _ h).mono ?_
    rintro r h' (⟨e, rfl, keeps⟩ | ⟨buffer, rfl, trades⟩)
    · exact ⟨keeps.trades holds, rfl, rfl, fun _ _ => ⟨none, none, bytes⟩, nofun⟩
    · exact ⟨none ▸ trades, rfl, rfl, nofun, fun _ _ => nofun⟩

/-- A device that refuses no buffer makes the one that is asked for. -/
theorem createBuffer_makes (makes : ∀ n descriptor, h.device.policy n (.buffer descriptor) = none) :
    Attempt.Ends createBuffer m h fun r m' h' => r = .ok () ∧
      h'.device.policy = h.device.policy ∧
      ∃ buffer, m' = { m with buffer := buffer } ∧ (m.shader.bufferSize ≠ 0 → buffer ≠ none) := by
  refine createBuffer_rule (fun there => ⟨rfl, rfl, m.buffer, rfl, there⟩) fun _ _ => ?_
  simp only [Device.createBuffer, Device.ask, HostM.ends_bind, HostM.ends_get, HostM.ends_modify,
    HostM.ends_pure, makes]
  exact ⟨trivial, rfl, _, rfl, fun _ => nofun⟩

theorem update_ok (makes : ∀ n descriptor, h.device.policy n (.buffer descriptor) = none) :
    Attempt.Ends update m h fun r _ _ => r = .ok () := by
  refine update_rule (createBuffer_makes makes) ?_ (fun _ _ _ _ => rfl) ?_
  · rintro _ _ _ ⟨is, _⟩
    cases is
  · exact fun _ _ _ _ _ => .of_forall fun _ _ => rfl

theorem update_equips (holds : m.Holds h.device) (tidy : h.device.Tidy) :
    Attempt.Ends update m h (Equips m h) := by
  refine update_rule (createBuffer_equips holds) ?_ ?_ ?_
  · exact fun _ _ _ equips => equips
  · exact fun _ h₁ equips _ => equips.onward tidy (Std.Refl.refl h₁) ⟨rfl, rfl, rfl⟩
  · intro m₁ h₁ buffer equips _
    refine (Device.writeBuffer_keepsLive buffer 0 _ h₁).mono fun _ h' keeps => ?_
    exact equips.onward tidy keeps ⟨rfl, rfl, rfl⟩

theorem bind_trades (slot : UInt32) (holds : m.Holds h.device) (tidy : h.device.Tidy) :
    Attempt.Ends (bind slot) m h fun _ m' h' =>
      Device.Trades m.buffer h.device m'.buffer h'.device := by
  refine bind_rule (Q := fun _ m₁ h₁ => Device.Trades m.buffer h.device m₁.buffer h₁.device)
    (fun _ => (update_equips holds tidy).mono fun _ _ _ equips => equips.trades)
    (fun _ _ => Host.KeepsLive.trades (Std.Refl.refl h) holds) (fun _ _ _ => id) ?_
  intro m₁ h₁ h' trades bound
  rwa [bound.device]

/-- Resolving textures leaves the buffer alone. -/
theorem resolve_same (parameters : List (String × String × TextureDimension)) (m : Material)
    (table : TextureTable) (h : Host) :
    Work.Ends (resolve parameters) (m, table) h fun _ s' _ =>
      ∃ indices, s'.1 = { m with textureIndices := indices } := by
  refine resolve_rule (P := fun _ m₁ _ _ => ∃ indices, m₁ = { m with textureIndices := indices })
    ?_ ⟨m.textureIndices, rfl⟩
  rintro name path dimension rest _ table₁ h₁ ⟨indices, rfl⟩
  exact HostM.Ends.of_forall fun _ _ => ⟨_, rfl⟩

theorem loadTextures_equips (holds : m.Holds h.device) (tidy : h.device.Tidy)
    (table : TextureTable) :
    Attempt.Ends loadTextures (m, table) h fun r s' h' => Equips m h r s'.1 h' := by
  refine ends_loadTextures.2 (((resolve_same _ m table h).and
    (resolve_keeps _ (m, table) h)).mono ?_)
  rintro _ ⟨m₁, table₁⟩ h₁ ⟨⟨indices, rfl⟩, kept⟩
  have keeps := kept.toSpares.keepsLive
  have holds₁ : Holds { m with textureIndices := indices, pending := false } h₁.device :=
    fun buffer is => (keeps.live buffer).2 (holds buffer is)
  exact (update_equips holds₁ (keeps.tidy tidy)).mono fun _ _ _ equips =>
    equips.after holds tidy keeps ⟨rfl, rfl, rfl⟩

/-- A new material has no buffer yet. -/
theorem holds_new (name : String) (object : ShaderId) (shader : Shader) (d : Device) :
    (new name object shader).Holds d := nofun

/-- Applying a file and making the buffer. -/
theorem applyFile_createBuffer_equips (file : MaterialFile) (holds : m.Holds h.device)
    (tidy : h.device.Tidy) :
    Attempt.Ends (do
      Material.applyFile file
      Material.createBuffer : Attempt Material Unit) m h (Equips m h) := by
  rw [Attempt.ends_bind, Attempt.ends_liftWork]
  refine ((applyFile_ends setValue_same setTexturePath_same file m h).and
    (applyFile_keeps file m h)).mono ?_
  rintro _ m₁ h₁ ⟨same, kept⟩
  have keeps := kept.toSpares.keepsLive
  have holds₁ : m₁.Holds h₁.device := fun buffer is =>
    (keeps.live buffer).2 (holds buffer (same.buffer ▸ is))
  exact (createBuffer_equips holds₁).mono fun _ _ _ equips =>
    equips.after holds tidy keeps same

/-- A file that sets nothing is applied by doing nothing. -/
theorem applyFile_createBuffer_makes {file : MaterialFile} (values : file.parameters = .empty)
    (paths : file.textures = .empty)
    (makes : ∀ n descriptor, h.device.policy n (.buffer descriptor) = none) :
    Attempt.Ends (do
      Material.applyFile file
      Material.createBuffer : Attempt Material Unit) m h fun r m' h' => r = .ok () ∧
        h'.device.policy = h.device.policy ∧
        ∃ buffer, m' = { m with buffer := buffer } ∧ (m.shader.bufferSize ≠ 0 → buffer ≠ none) := by
  have nothing : applyFile file = pure () := by
    unfold applyFile
    rw [values, paths]
    rfl
  rw [nothing, Attempt.ends_bind, Attempt.ends_liftWork]
  exact createBuffer_makes makes

/-- Saving a material changes the disk, and no buffer. -/
theorem save_keepsLive (m : Material) (path : String) :
    HostM.Keeps Host.KeepsLive (m.save path) := by
  refine .bind .get fun h => .bind (.modify fun h => ⟨fun _ => Iff.rfl, Nat.le_refl _⟩) fun _ => ?_
  split
  · exact .bind ((report_keeps _).mono fun _ _ spares => spares.keepsLive) fun _ => .pure
  · exact .pure

/-- Releasing a material destroys its buffer and no other. -/
theorem release_live (m : Material) (h : Host) :
    Work.Ends release m h fun _ _ h' => ∀ buffer, h'.device.IsLive buffer ↔
      h.device.IsLive buffer ∧ m.buffer ≠ some buffer := by
  unfold release
  rw [Work.ends_bind, Work.ends_get]
  cases m.buffer with
  | none => exact fun _ => (and_iff_left nofun).symm
  | some owned =>
    intro buffer
    refine Device.isLive_erase.trans (and_congr_right' ?_)
    simp [eq_comm]

end Material

end SurfaceShading
