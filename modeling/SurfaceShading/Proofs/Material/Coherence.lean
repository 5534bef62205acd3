/-
  What the device reads. In every session of a material, a clean material with a buffer is on the
  device byte for byte as it would be packed now. So a bind that sets an address sets that of a
  live buffer with the current values, a bind of a clean material writes nothing, a second update
  changes nothing, and every write fills the buffer from its start to its end
  (`Session.buffer_coherent`).
-/
import SurfaceShading.Proofs.Material.Session

namespace SurfaceShading.Material.Session

/-- After a bind to a slot that was not refused: the address that was set is that of a buffer of
the device which holds what the material packed before the bind and packs after it. Only a
material without any bytes sets no address. -/
def BindsCurrent (slot : UInt32) (s s' : Session) : Prop :=
  (∃ buffer, s'.material.buffer = some buffer ∧
    s'.host.commands.bound = s.host.commands.bound ++ [(slot, Device.address buffer)] ∧
    s'.host.device.buffers.get? buffer = some s.material.pack.staging ∧
    s'.material.pack.staging = s.material.pack.staging) ∨
  (s.material.shader.bufferSize = 0 ∧ s'.host.commands.bound = s.host.commands.bound)

/-- The device has of the material what it should. -/
structure BufferCoherent (s : Session) : Prop where
  /-- While the material is clean, its buffer holds what it would pack now. -/
  clean : s.material.dirty = false → ∀ buffer, s.material.buffer = some buffer →
    s.host.device.buffers.get? buffer = some s.material.pack.staging
  bind : ∀ slot, (s.perform (.bind slot)).1 = .ok () → BindsCurrent slot s (s.step (.bind slot))
  /-- Binding a clean material that has a buffer is not refused and leaves the device as it is. -/
  bindClean : ∀ slot, s.material.dirty = false → s.material.buffer ≠ none →
    (s.perform (.bind slot)).1 = .ok () ∧ (s.step (.bind slot)).material = s.material ∧
    (s.step (.bind slot)).host.device = s.host.device ∧
    (s.step (.bind slot)).host.strayWrites = s.host.strayWrites
  /-- A second update is not refused and leaves every buffer as it is. -/
  updateTwice : (s.perform .update).1 = .ok () →
    ((s.step .update).perform .update).1 = .ok () ∧
    ((s.step .update).step .update).material = (s.step .update).material ∧
    ∀ buffer, ((s.step .update).step .update).host.device.buffers.get? buffer =
      (s.step .update).host.device.buffers.get? buffer
  /-- Whatever is asked, all that is written fills the whole buffer of the material. -/
  writes : ∀ op, WroteWhole (s.step op).material s.host (s.step op).host

variable {shader : Shader} {s : Session}

theorem bindsCurrent_of_bound {slot : UInt32} {s' : Session} {h₁ : Host}
    (same : SameContents s.material s'.material) (clean : s'.material.dirty = false)
    (coherent : s'.material.Coherent h₁.device) (bound : Bound slot s'.material h₁ s'.host)
    (before : h₁.commands.bound = s.host.commands.bound) : BindsCurrent slot s s' := by
  have commands := bound.bound
  rw [before] at commands
  cases has : s'.material.buffer with
  | none =>
    refine .inr ⟨Decidable.byContradiction fun bytes => coherent.made clean ?_ has, ?_⟩
    · rwa [same.shader]
    · simpa [has] using commands
  | some buffer =>
    refine .inl ⟨buffer, has, by simpa [has] using commands, ?_, same.packed⟩
    rw [bound.device, coherent.clean clean buffer has, same.packed]
    rfl

theorem Sound.bindsCurrent (sound : s.Sound shader) (slot : UInt32)
    (ok : (s.perform (.bind slot)).1 = .ok ()) : BindsCurrent slot s (s.step (.bind slot)) := by
  by_cases stale : s.material.dirty = true ∨ s.material.buffer = none
  · obtain ⟨h₁, updated, ⟨_, bound⟩ | ⟨⟨e, refused⟩, _⟩⟩ := (s.ends_perform (.bind slot)).1
      (bind_stale_ends slot sound.coherent.toBacked stale)
    · have same := updated.sameContents
      rw [ok] at updated
      obtain ⟨buffer, is, _, written⟩ := updated.of_ok
      exact bindsCurrent_of_bound same (by rw [is]; rfl) (by rw [is]; exact written.coherent) bound
        written.bound
    · cases ok.symm.trans refused
  · obtain ⟨clean, there⟩ := not_or.1 stale
    have clean := Bool.eq_false_iff.2 clean
    obtain ⟨_, same, bound⟩ := (s.ends_perform (.bind slot)).1 (bind_clean_ends slot clean there)
    rw [← same] at bound
    refine bindsCurrent_of_bound ?_ ?_ ?_ bound rfl
    · rw [same]; exact ⟨rfl, rfl, rfl⟩
    · rw [same]; exact clean
    · rw [same]; exact sound.coherent

theorem Sound.updateTwice (sound : s.Sound shader) (ok : (s.perform .update).1 = .ok ()) :
    ((s.step .update).perform .update).1 = .ok () ∧
    ((s.step .update).step .update).material = (s.step .update).material ∧
    ∀ buffer, ((s.step .update).step .update).host.device.buffers.get? buffer =
      (s.step .update).host.device.buffers.get? buffer := by
  have first := (s.ends_perform .update).1 (update_ends sound.coherent.toBacked)
  rw [ok] at first
  obtain ⟨buffer, is, _, written⟩ := first.of_ok
  generalize s.step .update = once at is written ⊢
  have coherent := written.coherent
  rw [← is] at coherent
  have clean : once.material.dirty = false := by rw [is]; rfl
  have there := coherent.made clean
  have second := (once.ends_perform .update).1 (update_ends coherent.toBacked)
  have ok₂ := second.ok there
  rw [ok₂] at second
  obtain ⟨buffer', is', same, written'⟩ := second.of_ok
  have kept := same there
  refine ⟨ok₂, ?_, fun other => ?_⟩
  · rw [is', kept, is]
    rfl
  · by_cases mine : buffer' = some other
    · have packs : (once.material.written buffer').packed = once.material.packed :=
        SameContents.packed ⟨rfl, rfl, rfl⟩
      rw [written'.coherent.clean rfl other mine, packs, coherent.clean clean other (kept ▸ mine)]
    · exact written'.others other mine

theorem Sound.bufferCoherent (sound : s.Sound shader) : s.BufferCoherent where
  clean := sound.coherent.clean
  bind := sound.bindsCurrent
  bindClean slot clean there := by
    obtain ⟨ok, same, bound⟩ := (s.ends_perform (.bind slot)).1 (bind_clean_ends slot clean there)
    exact ⟨ok, same, bound.device, bound.strayWrites⟩
  updateTwice := sound.updateTwice
  writes op := (step_carried sound op).wrote

/-- **The device is coherent with a material.** In every session of a material, of any shader
and in any world: while it is clean its buffer holds what it would pack now, binding it sets the
address of a buffer with the current values, and what is written are whole buffers. -/
theorem buffer_coherent (name : String) (object : ShaderId) (shader : Shader) (host : Host)
    (ops : List Operation) : ((start name object shader host).run ops).BufferCoherent :=
  (run_sound (start_sound name object shader host) ops).bufferCoherent

end SurfaceShading.Material.Session
