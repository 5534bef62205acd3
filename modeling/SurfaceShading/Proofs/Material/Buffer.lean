/-
  The constant buffer of a material on the device. A clean material is what the device has:
  its buffer is there and holds what the material packs (`Material.Coherent`). Whatever changes
  what is packed marks the material as changed, all but the resolving of textures, which an
  update follows at once; an update needs no more than a buffer that is there
  (`Material.Backed`), and is done as a whole or not at all (`Material.update_ends`).
-/
import SurfaceShading.Proofs.OrderedMap
import SurfaceShading.Proofs.Bytes
import SurfaceShading.Proofs.Material.Rules
import SurfaceShading.Proofs.Texture.Slots
import SurfaceShading.Proofs.World.Materials

namespace SurfaceShading

/-! ## Buffers of the device -/

namespace Device

/-- A buffer that is made is there with the size that was asked for. -/
theorem createBuffer_ends (descriptor : BufferDescriptor) (h : Host) :
    HostM.Ends (createBuffer descriptor) h fun r h' =>
      (∃ e, r = .error e ∧ h.KeepsBuffers h') ∨
      ∃ buffer, r = .ok buffer ∧
        h'.device.buffers =
          h.device.buffers.insert buffer (List.replicate descriptor.size 0) ∧
        h'.device.writes = h.device.writes ∧ h'.strayWrites = h.strayWrites ∧
        h'.commands.bound = h.commands.bound := by
  refine (HostM.ends_bind _ _).2 ((ask_keepsBuffers (.buffer descriptor) h).mono ?_)
  intro refusal h₁ asked
  cases refusal with
  | some e => exact .inl ⟨e, rfl, asked⟩
  | none =>
    simp only [HostM.ends_bind]
    refine (report_keepsBuffers rfl h₁).mono fun _ h₂ reported => ?_
    refine (takeHandle_keepsBuffers h₂).mono fun buffer h₃ taken => ?_
    have kept : h.KeepsBuffers h₃ := Trans.trans (Trans.trans asked reported) taken
    refine .inr ⟨buffer, rfl, ?_, kept.writes, kept.strayWrites, kept.bound⟩
    rw [← kept.buffers]
    rfl

/-- A write to a buffer that is there is recorded, and changes this buffer alone. -/
theorem writeBuffer_ends {buffer : Handle} {contents : List UInt8} {h : Host}
    (live : h.device.buffers.get? buffer = some contents) (offset : Nat) (data : List UInt8) :
    HostM.Ends (writeBuffer buffer offset data) h fun _ h' =>
      h'.device.buffers =
        h.device.buffers.insert buffer (Bytes.overwrite contents offset data) ∧
      h'.device.writes = h.device.writes ++ [⟨buffer, offset, data⟩] ∧
      h'.strayWrites = h.strayWrites ∧ h'.commands.bound = h.commands.bound := by
  unfold writeBuffer
  rw [HostM.ends_bind, HostM.ends_get, live]
  exact ⟨rfl, rfl, rfl, rfl⟩

end Device

namespace Material

/-! ## What is packed -/

/-- The bytes of each parameter with their offset. -/
def pieces (m : Material) : List (Nat × List UInt8) :=
  m.shader.layout.parameters.map fun q => (q.offset.toNat, m.parameterBytes q)

theorem packed_eq_layAll (m : Material) :
    m.packed = Bytes.layAll (List.replicate m.shader.bufferSize 0) m.pieces := by
  rw [packed, Bytes.layAll, pieces, List.foldl_map]

@[simp] theorem length_packed (m : Material) : m.packed.length = m.shader.bufferSize := by
  rw [packed_eq_layAll, Bytes.length_layAll, List.length_replicate]

/-- Two states of a material with the same shader, values and slots of textures. -/
structure SameContents (m m' : Material) : Prop where
  shader : m'.shader = m.shader
  values : m'.values = m.values
  textureIndices : m'.textureIndices = m.textureIndices

theorem SameContents.packed {m m' : Material} (same : SameContents m m') :
    m'.packed = m.packed := by
  obtain ⟨shader, values, textureIndices⟩ := same
  simp only [Material.packed, parameterBytes, textureIndex, shader, values, textureIndices]

/-! ## Buffers that are there -/

/-- The buffer of the material is on the device with its full length, and a clean material has
one unless it has no bytes. -/
structure Backed (m : Material) (d : Device) : Prop where
  live : ∀ buffer, m.buffer = some buffer →
    ∃ contents, d.buffers.get? buffer = some contents ∧ contents.length = m.shader.bufferSize
  made : m.dirty = false → m.shader.bufferSize ≠ 0 → m.buffer ≠ none

/-- The device has of a clean material what the material packs. -/
structure Coherent (m : Material) (d : Device) : Prop extends Backed m d where
  clean : m.dirty = false → ∀ buffer, m.buffer = some buffer →
    d.buffers.get? buffer = some m.packed

/-- What was written since some state of the world: data that fills the buffer of the material
from its start to its end, and nothing to a buffer that was not there. -/
structure WroteWhole (m : Material) (before after : Host) : Prop where
  strayWrites : after.strayWrites = before.strayWrites
  whole : ∃ writes, after.device.writes = before.device.writes ++ writes ∧
    ∀ w ∈ writes, w.offset = 0 ∧ m.buffer = some w.buffer ∧
      ∃ contents, after.device.buffers.get? w.buffer = some contents ∧
        w.data.length = contents.length

theorem WroteWhole.nothing {m : Material} {h h' : Host}
    (strayWrites : h'.strayWrites = h.strayWrites)
    (writes : h'.device.writes = h.device.writes) : WroteWhole m h h' :=
  ⟨strayWrites, [], by rw [writes, List.append_nil], fun _ mem => absurd mem List.not_mem_nil⟩

variable {m m' : Material} {h h' : Host}

theorem coherent_new (name : String) (object : ShaderId) (shader : Shader) (d : Device) :
    (new name object shader).Coherent d where
  live := nofun
  made := nofun
  clean := nofun

/-! ## Changes of a material -/

/-- A change of the material alone: one that changes what is packed marks the material. -/
structure Marks (m m' : Material) : Prop where
  shader : m'.shader = m.shader
  buffer : m'.buffer = m.buffer
  clean : m'.dirty = false → m.dirty = false ∧ m'.packed = m.packed

instance : Std.Refl Marks := ⟨fun _ => ⟨rfl, rfl, fun clean => ⟨clean, rfl⟩⟩⟩

instance : Trans Marks Marks Marks :=
  ⟨fun first second => ⟨second.shader.trans first.shader, second.buffer.trans first.buffer,
    fun clean =>
      have before := second.clean clean
      ⟨(first.clean before.1).1, before.2.trans (first.clean before.1).2⟩⟩⟩

theorem Coherent.marks (coherent : Coherent m h.device) (marks : Marks m m')
    (buffers : h'.device.buffers = h.device.buffers) : Coherent m' h'.device where
  live := by rw [marks.buffer, marks.shader, buffers]; exact coherent.live
  made clean := by
    rw [marks.buffer, marks.shader]
    exact coherent.made (marks.clean clean).1
  clean clean := by
    rw [marks.buffer, (marks.clean clean).2, buffers]
    exact coherent.clean (marks.clean clean).1

theorem setValue_marks {name : String} {value : Value} (set : m.setValue name value = .ok m') :
    Marks m m' := by
  rw [eq_of_setValue set]
  exact ⟨rfl, rfl, nofun⟩

theorem setTexturePath_marks {name path : String} (set : m.setTexturePath name path = .ok m') :
    Marks m m' := by
  rw [eq_of_setTexturePath set]
  exact ⟨rfl, rfl, nofun⟩

/-- What every accepted setting does to a material, the settings of a file do together. -/
theorem applyFile_ends {R : Material → Material → Prop} [Std.Refl R] [Trans R R R]
    (value : ∀ {m m' name value}, m.setValue name value = .ok m' → R m m')
    (path : ∀ {m m' name path}, m.setTexturePath name path = .ok m' → R m m')
    (file : MaterialFile) (m : Material) (h : Host) :
    Work.Ends (applyFile file) m h fun _ m' _ => R m m' := by
  have one {change : Material → Except Error Material}
      (each : ∀ {m m'}, change m = .ok m' → R m m') (m : Material) (h : Host) :
      Work.Ends (tryChange change) m h fun _ m' _ => R m m' := by
    unfold tryChange
    rw [Work.ends_bind, Work.ends_get]
    cases changed : change m with
    | ok m' => exact each changed
    | error e => exact Std.Refl.refl m
  refine (Work.ends_bind _ _).2 ((Work.Ends.forM (fun _ => one value) _ m h).mono ?_)
  intro _ m₁ h₁ first
  refine (Work.Ends.forM (fun _ => one path) _ m₁ h₁).mono ?_
  exact fun _ _ _ second => Trans.trans first second

/-! ## Making and writing the buffer -/

/-- What making the buffer comes to. A refusal changes nothing. -/
inductive BufferMade (m : Material) (h : Host) : Except Error Unit → Material → Host → Prop where
  | unneeded (there : m.shader.bufferSize ≠ 0 → m.buffer ≠ none) : BufferMade m h (.ok ()) m h
  | refused {e : Error} {h' : Host} (missing : m.buffer = none) (bytes : m.shader.bufferSize ≠ 0)
      (kept : h.KeepsBuffers h') : BufferMade m h (.error e) m h'
  | made {buffer : Handle} {h' : Host} (missing : m.buffer = none)
      (bytes : m.shader.bufferSize ≠ 0)
      (buffers : h'.device.buffers =
        h.device.buffers.insert buffer (List.replicate m.shader.bufferSize 0))
      (writes : h'.device.writes = h.device.writes) (strayWrites : h'.strayWrites = h.strayWrites)
      (bound : h'.commands.bound = h.commands.bound) :
      BufferMade m h (.ok ()) { m with buffer := some buffer } h'

theorem createBuffer_ends (m : Material) (h : Host) :
    Attempt.Ends createBuffer m h (BufferMade m h) := by
  refine createBuffer_rule .unneeded fun missing bytes => ?_
  refine (Device.createBuffer_ends _ h).mono ?_
  rintro r h' (⟨e, rfl, kept⟩ | ⟨buffer, rfl, buffers, writes, strayWrites, bound⟩)
  · exact .refused missing bytes kept
  · exact .made missing bytes buffers writes strayWrites bound

/-- Short of a refusal, the buffer is all that changes. -/
theorem BufferMade.of_ok (made : BufferMade m h (.ok ()) m' h') :
    ∃ buffer, m' = { m with buffer := buffer } := by
  cases made with
  | unneeded _ => exact ⟨m.buffer, rfl⟩
  | made _ _ _ _ _ _ => exact ⟨_, rfl⟩

/-- The material with its buffer, as it is once the buffer was written. -/
def written (m : Material) (buffer : Option Handle) : Material :=
  { m with buffer := buffer, staging := m.packed, dirty := false }

/-- The device was given what the material packs. -/
structure Written (m : Material) (h : Host) (buffer : Option Handle) (h' : Host) : Prop where
  coherent : (m.written buffer).Coherent h'.device
  others : ∀ other, buffer ≠ some other →
    h'.device.buffers.get? other = h.device.buffers.get? other
  wrote : WroteWhole (m.written buffer) h h'
  bound : h'.commands.bound = h.commands.bound

/-- What an update comes to: it is refused a buffer and does nothing, or writes the buffer, which
is the one there was if there was one. -/
inductive Updated (m : Material) (h : Host) : Except Error Unit → Material → Host → Prop where
  | refused {e : Error} {h' : Host} (missing : m.buffer = none) (bytes : m.shader.bufferSize ≠ 0)
      (kept : h.KeepsBuffers h') : Updated m h (.error e) m h'
  | written {buffer : Option Handle} {h' : Host}
      (same : (m.shader.bufferSize ≠ 0 → m.buffer ≠ none) → buffer = m.buffer)
      (written : Written m h buffer h') : Updated m h (.ok ()) (m.written buffer) h'

theorem Updated.of_ok (updated : Updated m h (.ok ()) m' h') : ∃ buffer, m' = m.written buffer ∧
    ((m.shader.bufferSize ≠ 0 → m.buffer ≠ none) → buffer = m.buffer) ∧
    Written m h buffer h' := by
  cases updated with
  | written same written => exact ⟨_, rfl, same, written⟩

/-- No update is refused that needs no new buffer. -/
theorem Updated.ok {r : Except Error Unit} (updated : Updated m h r m' h')
    (there : m.shader.bufferSize ≠ 0 → m.buffer ≠ none) : r = .ok () := by
  cases updated with
  | refused missing bytes kept => exact absurd missing (there bytes)
  | written same written => rfl

/-- A material that packs nothing has nothing to write. -/
theorem written_nothing (missing : m.buffer = none) (none : m.shader.bufferSize = 0) :
    Written m h m.buffer h := by
  refine ⟨⟨⟨?_, fun _ bytes => absurd none bytes⟩, ?_⟩, fun _ _ => rfl, .nothing rfl rfl, rfl⟩ <;>
    · rw [missing]
      nofun

/-- The second half of an update, with the buffer there. -/
theorem write_ends (backed : m.Backed h.device) {buffer : Handle} (has : m.buffer = some buffer) :
    HostM.Ends (Device.writeBuffer buffer 0 m.packed) h fun _ h' => Written m h m.buffer h' := by
  obtain ⟨contents, live, full⟩ := backed.live buffer has
  refine (Device.writeBuffer_ends live 0 m.packed).mono ?_
  rintro _ h' ⟨buffers, writes, strayWrites, bound⟩
  have whole : m.packed.length = contents.length := by rw [length_packed, full]
  have packs : (m.written m.buffer).packed = m.packed :=
    SameContents.packed (m := m) ⟨rfl, rfl, rfl⟩
  have now : h'.device.buffers.get? buffer = some m.packed := by
    rw [buffers, Bytes.overwrite_all whole, OrderedMap.get?_insert_self]
  rw [has] at packs ⊢
  refine ⟨⟨⟨?_, nofun⟩, ?_⟩, ?_, ⟨strayWrites, _, writes, ?_⟩, bound⟩
  · rintro _ ⟨⟩
    exact ⟨_, now, length_packed m⟩
  · rintro _ _ ⟨⟩
    rw [packs, now]
  · intro other different
    rw [buffers, OrderedMap.get?_insert_of_ne]
    rintro rfl
    exact different rfl
  · intro w mem
    obtain rfl := List.mem_singleton.1 mem
    exact ⟨rfl, rfl, _, now, rfl⟩

/-- What is written to a buffer that was just made is all that was written. -/
theorem Written.ofMade {buffer : Handle} {h₁ : Host}
    (buffers : h₁.device.buffers =
      h.device.buffers.insert buffer (List.replicate m.shader.bufferSize 0))
    (writes : h₁.device.writes = h.device.writes) (strayWrites : h₁.strayWrites = h.strayWrites)
    (bound : h₁.commands.bound = h.commands.bound)
    (written : Written { m with buffer := some buffer } h₁ (some buffer) h') :
    Written m h (some buffer) h' := by
  obtain ⟨coherent, others, ⟨stray, ws, whole⟩, bound'⟩ := written
  refine ⟨coherent, fun other different => ?_, ⟨stray.trans strayWrites, ws, ?_⟩,
    bound'.trans bound⟩
  · rw [others other different, buffers, OrderedMap.get?_insert_of_ne]
    rintro rfl
    exact different rfl
  · rwa [writes] at whole

theorem update_ends (backed : m.Backed h.device) : Attempt.Ends update m h (Updated m h) := by
  refine update_rule (createBuffer_ends m h) ?_ ?_ ?_
  · intro e m₁ h₁ made
    cases made with
    | refused missing bytes kept => exact .refused missing bytes kept
  · intro m₁ h₁ made missing
    cases made with
    | unneeded there =>
      exact .written (fun _ => rfl) (written_nothing missing (not_not.1 (mt there (· missing))))
    | made _ _ _ _ _ _ => cases missing
  · intro m₁ h₁ buffer made has
    cases made with
    | unneeded there =>
      exact (write_ends backed has).mono fun _ h' written => .written (fun _ => rfl) written
    | made missing bytes buffers writes strayWrites bound =>
      cases has
      have backed₁ : Backed { m with buffer := some buffer } h₁.device := by
        refine ⟨?_, fun _ _ => nofun⟩
        rintro _ ⟨⟩
        exact ⟨_, by rw [buffers, OrderedMap.get?_insert_self], List.length_replicate⟩
      refine (write_ends backed₁ rfl).mono fun _ h' written => ?_
      exact .written (fun there => absurd missing (there bytes))
        (.ofMade buffers writes strayWrites bound written)

/-! ## What the device has afterwards -/

theorem Coherent.bufferMade {r : Except Error Unit} (coherent : m.Coherent h.device)
    (made : BufferMade m h r m' h') : m'.Coherent h'.device ∧ WroteWhole m' h h' := by
  cases made with
  | unneeded there => exact ⟨coherent, .nothing rfl rfl⟩
  | refused missing bytes kept =>
    exact ⟨coherent.marks (Std.Refl.refl m) kept.buffers, .nothing kept.strayWrites kept.writes⟩
  | made missing bytes buffers writes strayWrites bound =>
    have dirty (clean : m.dirty = false) : False := coherent.made clean bytes missing
    refine ⟨⟨⟨?_, fun clean => (dirty clean).elim⟩, fun clean => (dirty clean).elim⟩,
      .nothing strayWrites writes⟩
    rintro _ ⟨⟩
    exact ⟨_, by rw [buffers, OrderedMap.get?_insert_self], List.length_replicate⟩

/-- Whatever an update comes to, the device has of a clean material what it packs. -/
theorem Updated.carries {r : Except Error Unit} (updated : Updated m h r m' h')
    (made : m.dirty = false → m.shader.bufferSize ≠ 0 → m.buffer ≠ none) :
    m'.Coherent h'.device ∧ WroteWhole m' h h' := by
  cases updated with
  | refused missing bytes kept =>
    refine ⟨⟨⟨fun buffer is => ?_, made⟩, fun clean => absurd missing (made clean bytes)⟩,
      .nothing kept.strayWrites kept.writes⟩
    rw [missing] at is
    cases is
  | written _ written => exact ⟨written.coherent, written.wrote⟩

/-- The buffer of the material, if it has one, is bound to a slot, and nothing else happens. -/
structure Bound (slot : UInt32) (m : Material) (before after : Host) : Prop where
  device : after.device = before.device
  strayWrites : after.strayWrites = before.strayWrites
  bound : after.commands.bound =
    before.commands.bound ++ m.buffer.toList.map fun buffer => (slot, Device.address buffer)

/-- The rule for binding: a material that was changed, or has no buffer, is updated first. -/
theorem bind_rule {slot : UInt32} {Q post : Except Error Unit → Material → Host → Prop}
    (stale : m.dirty = true ∨ m.buffer = none → Attempt.Ends update m h Q)
    (clean : m.dirty = false → m.buffer ≠ none → Q (.ok ()) m h)
    (refused : ∀ e m₁ h₁, Q (.error e) m₁ h₁ → post (.error e) m₁ h₁)
    (bound : ∀ m₁ h₁ h', Q (.ok ()) m₁ h₁ → Bound slot m₁ h₁ h' → post (.ok ()) m₁ h') :
    Attempt.Ends (bind slot) m h post := by
  have last (m₁ : Material) (h₁ : Host) (held : Q (.ok ()) m₁ h₁) : Attempt.Ends (do
      let m ← get
      if m.buffer.isSome then Commands.bind slot m.address : Attempt Material Unit) m₁ h₁ post := by
    rw [Attempt.ends_bind, Attempt.ends_get, Attempt.after_ok]
    cases has : m₁.buffer with
    | none =>
      refine bound m₁ h₁ h₁ held ⟨rfl, rfl, ?_⟩
      rw [has]
      exact (List.append_nil _).symm
    | some buffer =>
      refine bound m₁ h₁ _ held ⟨rfl, rfl, ?_⟩
      rw [has]
      show h₁.commands.bound ++ [(slot, m₁.address)] = h₁.commands.bound ++ [_]
      rw [address, has]
  unfold bind
  rw [Attempt.ends_bind, Attempt.ends_get, Attempt.after_ok]
  split
  · next first =>
    refine (stale (by simpa [Option.isNone_iff_eq_none] using first)).bind ?_ refused
    exact fun _ => last
  · next other =>
    obtain ⟨unchanged, there⟩ : m.dirty = false ∧ m.buffer ≠ none := by
      simpa [Option.isNone_iff_eq_none] using other
    exact last m h (clean unchanged there)

/-- Binding a clean material that has its buffer writes nothing. -/
theorem bind_clean_ends (slot : UInt32) (clean : m.dirty = false) (there : m.buffer ≠ none) :
    Attempt.Ends (bind slot) m h fun r m' h' => r = .ok () ∧ m' = m ∧ Bound slot m h h' := by
  refine bind_rule (Q := fun r m₁ h₁ => r = .ok () ∧ m₁ = m ∧ h₁ = h) ?_
    (fun _ _ => ⟨rfl, rfl, rfl⟩) ?_ ?_
  · rintro (changed | missing)
    · cases clean.symm.trans changed
    · exact absurd missing there
  · rintro _ _ _ ⟨is, _⟩
    cases is
  · rintro _ _ h' ⟨_, rfl, rfl⟩ bound
    exact ⟨rfl, rfl, bound⟩

/-- Binding a material that was changed, or has no buffer, updates it first. -/
theorem bind_stale_ends (slot : UInt32) (backed : m.Backed h.device)
    (stale : m.dirty = true ∨ m.buffer = none) :
    Attempt.Ends (bind slot) m h fun r m' h' => ∃ h₁, Updated m h r m' h₁ ∧
      (r = .ok () ∧ Bound slot m' h₁ h' ∨ (∃ e, r = .error e) ∧ h' = h₁) := by
  refine bind_rule (fun _ => update_ends backed) (fun clean there => ?_) ?_ ?_
  · rcases stale with changed | missing
    · cases clean.symm.trans changed
    · exact absurd missing there
  · exact fun e _ h₁ updated => ⟨h₁, updated, .inr ⟨⟨e, rfl⟩, rfl⟩⟩
  · exact fun _ h₁ _ updated bound => ⟨h₁, updated, .inl ⟨rfl, bound⟩⟩

theorem release_ends (m : Material) (h : Host) :
    Work.Ends release m h fun _ m' h' =>
      (m.buffer = none ∧ m' = m ∧ h' = h) ∨
      (m' = { m with buffer := none, dirty := true } ∧ WroteWhole m' h h') := by
  unfold release
  rw [Work.ends_bind, Work.ends_get]
  cases has : m.buffer with
  | none => exact .inl ⟨rfl, rfl, rfl⟩
  | some buffer => exact .inr ⟨rfl, .nothing rfl rfl⟩

/-! ## Resolving textures -/

/-- Resolving changes the slots of textures alone, and those that it finds are words. -/
theorem resolve_ends (parameters : List (String × String × TextureDimension))
    {table : TextureTable} (words : table.slots.capacity ≤ indexSpace) (m : Material) (h : Host) :
    Work.Ends (resolve parameters) (m, table) h fun _ s' _ =>
      ∃ indices, s'.1 = { m with textureIndices := indices } ∧
        ((∀ name index, m.textureIndices.get? name = some index → index < indexSpace) →
          ∀ name index, indices.get? name = some index → index < indexSpace) := by
  refine (resolve_rule (P := fun _ m₁ table₁ _ => table₁.slots.capacity ≤ indexSpace ∧
    ∃ indices, m₁ = { m with textureIndices := indices } ∧
      ((∀ name index, m.textureIndices.get? name = some index → index < indexSpace) →
        ∀ name index, indices.get? name = some index → index < indexSpace))
    ?_ ⟨words, m.textureIndices, rfl, id⟩).mono fun _ _ _ => And.right
  rintro name path dimension rest _ table₁ h₁ ⟨words₁, indices, rfl, valid⟩
  refine (TextureTable.acquire_ends words₁ path dimension h₁).mono ?_
  rintro index table₂ h₂ ⟨lt, kept⟩
  refine ⟨kept ▸ words₁, _, rfl, fun before name' index' found => ?_⟩
  rw [OrderedMap.get?_insert] at found
  split at found
  · cases found
    exact lt
  · exact valid before name' index' found

end Material

end SurfaceShading
