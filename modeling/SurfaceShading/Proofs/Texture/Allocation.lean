/-
  What taking and freeing do to the slots of a table. `Slots.Sound` says that the count is that of
  the slots in use and that the cursor stands at a slot; both operations keep it. A slot is taken
  unless all are (`Slots.allocate_eq_none_iff`), and it is the first free one that is met going
  round from the cursor (`Slots.FirstFree`); what is freed is in use (`Slots.free_eq_ok_iff`).
-/
import SurfaceShading.Proofs.Texture.Slots
import Mathlib.Data.Finset.Card

namespace SurfaceShading.Slots

variable {s s' : Slots} {slot index : Nat}

/-! ## Slots in use -/

theorem lt_of_isUsed (used : s.isUsed slot = true) : slot < s.capacity := by
  by_contra outside
  have free : s.used[slot]? = none := Array.getElem?_eq_none (Nat.le_of_not_lt outside)
  rw [isUsed, Array.getD_eq_getD_getElem?, free] at used
  cases used

/-- The slots in use. -/
def usedSlots (s : Slots) : Finset Nat :=
  (Finset.range s.capacity).filter fun slot => s.isUsed slot = true

@[simp] theorem mem_usedSlots : slot ∈ s.usedSlots ↔ s.isUsed slot = true := by
  rw [usedSlots, Finset.mem_filter, Finset.mem_range]
  exact ⟨And.right, fun used => ⟨lt_of_isUsed used, used⟩⟩

theorem card_usedSlots_le (s : Slots) : s.usedSlots.card ≤ s.capacity := by
  have le := Finset.card_filter_le (Finset.range s.capacity) fun slot => s.isUsed slot = true
  rwa [Finset.card_range] at le

/-- While not all slots are counted, one of them is free. -/
theorem exists_free (room : s.usedSlots.card < s.capacity) :
    ∃ slot < s.capacity, s.isUsed slot = false := by
  by_contra none
  have all : Finset.range s.capacity ⊆ s.usedSlots := by
    intro slot mem
    rw [mem_usedSlots]
    by_contra free
    exact none ⟨slot, Finset.mem_range.1 mem, Bool.eq_false_iff.2 free⟩
  have le := Finset.card_le_card all
  rw [Finset.card_range] at le
  omega

/-- The slots with one more in use. -/
def taking (s : Slots) (slot : Nat) : Slots :=
  { s with
    used := s.used.setIfInBounds slot true
    cursor := (slot + 1) % s.capacity
    taken := s.taken + 1 }

/-- The slots with one less in use. -/
def freeing (s : Slots) (slot : Nat) : Slots :=
  { s with used := s.used.setIfInBounds slot false, taken := s.taken - 1 }

@[simp] theorem capacity_taking (s : Slots) (slot : Nat) :
    (s.taking slot).capacity = s.capacity := Array.size_setIfInBounds

@[simp] theorem capacity_freeing (s : Slots) (slot : Nat) :
    (s.freeing slot).capacity = s.capacity := Array.size_setIfInBounds

@[simp] theorem base_taking (s : Slots) (slot : Nat) : (s.taking slot).base = s.base := rfl

@[simp] theorem base_freeing (s : Slots) (slot : Nat) : (s.freeing slot).base = s.base := rfl

/-- Setting a slot changes the use of this slot alone. -/
theorem getD_setIfInBounds {used : Array Bool} (lt : slot < used.size) (value : Bool) (i : Nat) :
    (used.setIfInBounds slot value).getD i false =
      if i = slot then value else used.getD i false := by
  simp only [Array.getD_eq_getD_getElem?, Array.getElem?_setIfInBounds]
  by_cases same : slot = i
  · subst same
    simp [lt]
  · rw [if_neg same, if_neg (Ne.symm same)]

theorem isUsed_taking (lt : slot < s.capacity) (i : Nat) :
    (s.taking slot).isUsed i = (s.isUsed i || i == slot) := by
  show (s.used.setIfInBounds slot true).getD i false = _
  rw [getD_setIfInBounds lt]
  by_cases same : i = slot <;> simp [same, isUsed]

theorem isUsed_freeing (lt : slot < s.capacity) (i : Nat) :
    (s.freeing slot).isUsed i = (s.isUsed i && i != slot) := by
  show (s.used.setIfInBounds slot false).getD i false = _
  rw [getD_setIfInBounds lt]
  by_cases same : i = slot <;> simp [same, isUsed]

theorem usedSlots_taking (lt : slot < s.capacity) :
    (s.taking slot).usedSlots = insert slot s.usedSlots := by
  ext i
  simp [isUsed_taking lt, or_comm]

theorem usedSlots_freeing (lt : slot < s.capacity) :
    (s.freeing slot).usedSlots = s.usedSlots.erase slot := by
  ext i
  simp [isUsed_freeing lt, and_comm]

/-! ## What always holds -/

/-- The count is that of the slots in use, and the cursor stands at one of the slots. -/
structure Sound (s : Slots) : Prop where
  cursor : 0 < s.capacity → s.cursor < s.capacity
  taken : s.taken = s.usedSlots.card

@[simp] theorem capacity_new (capacity base : Nat) : (new capacity base).capacity = capacity :=
  Array.size_replicate

theorem isUsed_new (capacity base slot : Nat) : (new capacity base).isUsed slot = false := by
  show (Array.replicate capacity false).getD slot false = false
  rw [Array.getD_eq_getD_getElem?, Array.getElem?_replicate]
  split <;> rfl

theorem sound_new (capacity base : Nat) : (new capacity base).Sound where
  cursor positive := by simpa [new] using positive
  taken := by
    have empty : (new capacity base).usedSlots = ∅ := by
      ext slot
      simp [isUsed_new]
    rw [empty]
    rfl

theorem Sound.taking (sound : s.Sound) (lt : slot < s.capacity) (free : s.isUsed slot = false) :
    (s.taking slot).Sound where
  cursor _ := by
    rw [capacity_taking]
    exact Nat.mod_lt _ (by omega)
  taken := by
    have notMem : slot ∉ s.usedSlots := by simp [free]
    rw [usedSlots_taking lt, Finset.card_insert_of_notMem notMem, ← sound.taken]
    rfl

theorem Sound.freeing (sound : s.Sound) (used : s.isUsed slot = true) : (s.freeing slot).Sound where
  cursor := by
    rw [capacity_freeing]
    exact sound.cursor
  taken := by
    rw [usedSlots_freeing (lt_of_isUsed used), Finset.card_erase_of_mem (mem_usedSlots.2 used),
      ← sound.taken]
    rfl

/-- Something is counted while a slot is in use. -/
theorem Sound.taken_pos (sound : s.Sound) (used : s.isUsed slot = true) : 0 < s.taken := by
  rw [sound.taken]
  exact Finset.card_pos.2 ⟨slot, mem_usedSlots.2 used⟩

theorem Sound.taken_le (sound : s.Sound) : s.taken ≤ s.capacity := by
  rw [sound.taken]
  exact s.card_usedSlots_le

/-- While a slot is free, not all are counted. -/
theorem Sound.taken_lt (sound : s.Sound) (lt : slot < s.capacity) (free : s.isUsed slot = false) :
    s.taken < s.capacity := by
  have inside : insert slot s.usedSlots ⊆ Finset.range s.capacity := by
    intro i mem
    rcases Finset.mem_insert.1 mem with rfl | used
    · exact Finset.mem_range.2 lt
    · exact Finset.mem_range.2 (lt_of_isUsed (mem_usedSlots.1 used))
  have le := Finset.card_le_card inside
  have notMem : slot ∉ s.usedSlots := by simp [free]
  rw [Finset.card_insert_of_notMem notMem, Finset.card_range, ← sound.taken] at le
  exact le

/-! ## The search -/

/-- The first free slot that is met going round from the cursor. -/
def FirstFree (s : Slots) (slot : Nat) : Prop :=
  ∃ step < s.capacity, slot = (s.cursor + step) % s.capacity ∧ s.isUsed slot = false ∧
    ∀ earlier < step, s.isUsed ((s.cursor + earlier) % s.capacity) = true

theorem FirstFree.lt (first : s.FirstFree slot) : slot < s.capacity := by
  obtain ⟨step, lt, rfl, _⟩ := first
  exact Nat.mod_lt _ (by omega)

theorem FirstFree.free (first : s.FirstFree slot) : s.isUsed slot = false := by
  obtain ⟨_, _, _, free, _⟩ := first
  exact free

theorem FirstFree.eq_cursor (first : s.FirstFree slot) (lt : s.cursor < s.capacity)
    (free : s.isUsed s.cursor = false) : slot = s.cursor := by
  have here : (s.cursor + 0) % s.capacity = s.cursor := Nat.mod_eq_of_lt lt
  obtain ⟨step, _, rfl, _, before⟩ := first
  cases step with
  | zero => exact here
  | succ step =>
    have used := before 0 (Nat.succ_pos step)
    rw [here, free] at used
    cases used

theorem add_mod_succ (start step capacity : Nat) :
    ((start + 1) % capacity + step) % capacity = (start + (step + 1)) % capacity := by
  rw [Nat.mod_add_mod]
  congr 1
  omega

/-- The search ends at a free slot, and all slots before it are in use. -/
theorem freeFrom?_eq_some {start count : Nat} (lt : start < s.capacity)
    (found : s.freeFrom? start count = some slot) :
    ∃ step < count, slot = (start + step) % s.capacity ∧ s.isUsed slot = false ∧
      ∀ earlier < step, s.isUsed ((start + earlier) % s.capacity) = true := by
  induction count generalizing start with
  | zero => cases found
  | succ count ih =>
    have here : (start + 0) % s.capacity = start := Nat.mod_eq_of_lt lt
    rw [freeFrom?] at found
    split at found
    · next used =>
      have next : (start + 1) % s.capacity < s.capacity := Nat.mod_lt _ (by omega)
      obtain ⟨step, below, is, free, before⟩ := ih next found
      refine ⟨step + 1, by omega, by rw [is, add_mod_succ], free, fun earlier lt => ?_⟩
      cases earlier with
      | zero => rwa [here]
      | succ earlier =>
        rw [← add_mod_succ]
        exact before earlier (by omega)
    · next free =>
      cases found
      exact ⟨0, by omega, here.symm, Bool.eq_false_iff.2 free, fun _ lt => absurd lt (by omega)⟩

/-- A search without a result has met slots in use alone. -/
theorem freeFrom?_eq_none {start count : Nat} (lt : start < s.capacity)
    (none : s.freeFrom? start count = none) (step : Nat) (below : step < count) :
    s.isUsed ((start + step) % s.capacity) = true := by
  induction count generalizing start step with
  | zero => omega
  | succ count ih =>
    rw [freeFrom?] at none
    split at none
    · next used =>
      cases step with
      | zero => rwa [Nat.add_zero, Nat.mod_eq_of_lt lt]
      | succ step =>
        rw [← add_mod_succ]
        exact ih (Nat.mod_lt _ (by omega)) none step (by omega)
    · cases none

/-- Going round from one slot, every slot is met. -/
theorem exists_step {start capacity : Nat} (lt : start < capacity) (slot : Nat)
    (below : slot < capacity) : ∃ step < capacity, (start + step) % capacity = slot := by
  refine ⟨(slot + capacity - start) % capacity, Nat.mod_lt _ (by omega), ?_⟩
  have sum : start + (slot + capacity - start) = slot + capacity := by omega
  rw [Nat.add_mod_mod, sum, Nat.add_mod_right, Nat.mod_eq_of_lt below]

theorem firstFree?_eq_some (lt : s.cursor < s.capacity) (found : s.firstFree? = some slot) :
    s.FirstFree slot := freeFrom?_eq_some lt found

/-- While a slot is free, the search finds one. -/
theorem exists_firstFree? (sound : s.Sound) (room : s.taken < s.capacity) :
    ∃ slot, s.firstFree? = some slot := by
  have cursor : s.cursor < s.capacity := sound.cursor (by omega)
  obtain ⟨slot, lt, free⟩ := exists_free (sound.taken ▸ room)
  refine Option.ne_none_iff_exists'.1 fun none => ?_
  obtain ⟨step, below, met⟩ := exists_step cursor slot lt
  have used := freeFrom?_eq_none cursor none step below
  rw [met, free] at used
  cases used

/-! ## Taking and freeing -/

theorem allocate_eq_none_iff (sound : s.Sound) : s.allocate = none ↔ s.taken = s.capacity := by
  unfold allocate
  constructor
  · intro none
    by_contra notFull
    have le := sound.taken_le
    obtain ⟨slot, found⟩ := exists_firstFree? sound (by omega)
    rw [if_neg notFull, found] at none
    cases none
  · exact fun full => if_pos full

/-- What is taken is the first free slot going round from the cursor. -/
theorem allocate_eq_some (sound : s.Sound) (took : s.allocate = some (index, s')) :
    ∃ slot, s.FirstFree slot ∧ index = s.indexOf slot ∧ s' = s.taking slot := by
  unfold allocate at took
  split at took
  · cases took
  · next notFull =>
    have le := sound.taken_le
    have cursor : s.cursor < s.capacity := sound.cursor (by omega)
    split at took
    · cases took
    · next slot found =>
      cases took
      exact ⟨slot, firstFree?_eq_some cursor found, rfl, rfl⟩

theorem relative?_eq_some : s.relative? index = some slot ↔
    index = s.base + slot ∧ slot < s.capacity := by
  unfold relative?
  simp only [Option.ite_none_right_eq_some, Option.some.injEq]
  omega

theorem isAllocated_iff : s.isAllocated index = true ↔
    ∃ slot, index = s.base + slot ∧ s.isUsed slot = true := by
  unfold isAllocated
  constructor
  · intro used
    split at used
    · next slot is => exact ⟨slot, (relative?_eq_some.1 is).1, used⟩
    · cases used
  · rintro ⟨slot, rfl, used⟩
    rw [relative?_eq_some.2 ⟨rfl, lt_of_isUsed used⟩]
    exact used

theorem isAllocated_taking {i : Nat} (lt : slot < s.capacity) :
    (s.taking slot).isAllocated i = true ↔ s.isAllocated i = true ∨ i = s.base + slot := by
  simp only [isAllocated_iff, isUsed_taking lt, base_taking, Bool.or_eq_true, beq_iff_eq]
  constructor
  · rintro ⟨other, rfl, used | rfl⟩
    · exact .inl ⟨other, rfl, used⟩
    · exact .inr rfl
  · rintro (⟨other, rfl, used⟩ | rfl)
    · exact ⟨other, rfl, .inl used⟩
    · exact ⟨slot, rfl, .inr rfl⟩

theorem isAllocated_freeing {i : Nat} (lt : slot < s.capacity) :
    (s.freeing slot).isAllocated i = true ↔ s.isAllocated i = true ∧ i ≠ s.base + slot := by
  simp only [isAllocated_iff, isUsed_freeing lt, base_freeing, Bool.and_eq_true, bne_iff_ne]
  constructor
  · rintro ⟨other, rfl, used, different⟩
    exact ⟨⟨other, rfl, used⟩, fun same => different (Nat.add_left_cancel same)⟩
  · rintro ⟨⟨other, rfl, used⟩, different⟩
    exact ⟨other, rfl, used, fun same => different (same ▸ rfl)⟩

/-- Only a slot in use is freed. -/
theorem free_eq_ok_iff : s.free index = .ok s' ↔
    ∃ slot, index = s.base + slot ∧ s.isUsed slot = true ∧ s' = s.freeing slot := by
  unfold free
  constructor
  · intro freed
    split at freed
    · cases freed
    · next slot is =>
      split at freed
      · next used =>
        cases freed
        exact ⟨slot, (relative?_eq_some.1 is).1, used, rfl⟩
      · cases freed
  · rintro ⟨slot, rfl, used, rfl⟩
    rw [relative?_eq_some.2 ⟨rfl, lt_of_isUsed used⟩]
    exact if_pos used

theorem indexOf_eq (room : s.base + s.capacity ≤ indexSpace) (lt : slot < s.capacity) :
    s.indexOf slot = s.base + slot := Nat.mod_eq_of_lt (by omega)

end SurfaceShading.Slots
