/-
  Indices of textures. A table never gains or loses a slot, so every index that it answers with
  is a word as long as its slots are no more than there are words (`TextureTable.acquire_ends`).
-/
import SurfaceShading.Proofs.Texture.Rules

namespace SurfaceShading

namespace Slots

theorem relative?_lt {s : Slots} {index slot : Nat} (is : s.relative? index = some slot) :
    slot < s.capacity := by
  unfold relative? at is
  split at is
  · next inside => cases is; exact inside.2
  · cases is

theorem capacity_of_allocate {s s' : Slots} {index : Nat}
    (taken : s.allocate = some (index, s')) : s'.capacity = s.capacity := by
  unfold allocate at taken
  split at taken
  · cases taken
  · split at taken
    · cases taken
    · cases taken
      exact Array.size_setIfInBounds

theorem capacity_of_free {s s' : Slots} {index : Nat} (freed : s.free index = .ok s') :
    s'.capacity = s.capacity := by
  unfold free at freed
  split at freed
  · cases freed
  · split at freed
    · cases freed
      exact Array.size_setIfInBounds
    · cases freed

theorem distance_lt (s : Slots) (index : Nat) : s.distance index < indexSpace :=
  Nat.mod_lt _ (by decide)

theorem giveBack_ends (index : Nat) (s : Slots) (h : Host) :
    Work.Ends (giveBack index) s h fun _ s' _ => s'.capacity = s.capacity := by
  unfold giveBack
  rw [Work.ends_bind, Work.ends_get]
  split
  · next freed => exact capacity_of_free freed
  · exact rfl
  · exact rfl

end Slots

namespace TextureTable

theorem defaultIndex_lt (dimension : TextureDimension) : defaultIndex dimension < indexSpace := by
  cases dimension <;> decide

theorem free_ends (index : Nat) (table : TextureTable) (h : Host) :
    Work.Ends (free index) table h fun _ table' _ =>
      table'.slots.capacity = table.slots.capacity := Slots.giveBack_ends index table.slots h

/-- An index that is answered with is a word, and the table has as many slots as before. -/
theorem acquire_ends {table : TextureTable} (words : table.slots.capacity ≤ indexSpace)
    (path : String) (dimension : TextureDimension) (h : Host) :
    Work.Ends (acquire path dimension) table h fun slot table' _ =>
      slot < indexSpace ∧ table'.slots.capacity = table.slots.capacity := by
  refine acquire_rule ?_ ?_ ?_
  · intro index known
    obtain ⟨entry, _, is⟩ := Option.bind_eq_some_iff.1 known
    exact ⟨Nat.lt_of_lt_of_le (Slots.relative?_lt is) words, rfl⟩
  · exact fun _ _ => ⟨defaultIndex_lt dimension, rfl⟩
  · intro index slots _ taken
    have capacity := Slots.capacity_of_allocate taken
    refine .of_forall fun r h₁ => ?_
    cases r with
    | ok texture => exact ⟨Slots.distance_lt _ _, capacity⟩
    | error e =>
      refine (free_ends index _ h₁).mono fun _ _ _ kept => ?_
      exact ⟨defaultIndex_lt dimension, kept.trans capacity⟩

end TextureTable

end SurfaceShading
