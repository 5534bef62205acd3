/-
  Live indices. An index is live when some request took it and no later one freed it
  (`Slots.Live`, which reads the requests and their answers alone). After any requests the slots
  in use, the set bits of the bitmap and the count are the live indices, the next request is
  answered by what is live, and words of 32 and 64 bits go along without any arithmetic being
  refused (`Slots.run_exact`).
-/
import SurfaceShading.Proofs.Texture.Bitmap

namespace SurfaceShading

namespace Slots

/-! ## Requests -/

/-- What a table of slots can be asked for. -/
inductive Request where
  | allocate
  | free (index : UInt32)
  deriving Repr, DecidableEq

inductive Answer where
  | taken (index : Nat)
  | full
  | freed
  | notFreed
  deriving Repr, DecidableEq

/-- Requests with their answers, the first one first. -/
abbrev Trace := List (Request × Answer)

def perform (s : Slots) : Request → Answer × Slots
  | .allocate =>
    match s.allocate with
    | some (index, s') => (.taken index, s')
    | none => (.full, s)
  | .free index =>
    match s.free index.toNat with
    | .ok s' => (.freed, s')
    | .error _ => (.notFreed, s)

/-- Goes on with requests after those of a trace. -/
def run (trace : Trace) (s : Slots) : List Request → Trace × Slots
  | [] => (trace, s)
  | request :: rest => run (trace ++ [(request, (s.perform request).1)]) (s.perform request).2 rest

/-- Some request took the index, and none after it freed it. -/
def Live (trace : Trace) (index : UInt32) : Prop :=
  ∃ before after, trace = before ++ (.allocate, .taken index.toNat) :: after ∧
    (.free index, .freed) ∉ after

end Slots

namespace SlotWords

open Slots (Request Answer Trace)

def perform (w : SlotWords) : Request → Option (Answer × SlotWords)
  | .allocate => do
    match ← w.allocate with
    | (some index, w') => some (.taken index.toNat, w')
    | (none, w') => some (.full, w')
  | .free index => do
    let (freed, w') ← w.free index
    some (if freed then .freed else .notFreed, w')

def run (trace : Trace) (w : SlotWords) : List Request → Option (Trace × SlotWords)
  | [] => some (trace, w)
  | request :: rest => do
    let (answer, w') ← w.perform request
    run (trace ++ [(request, answer)]) w' rest

end SlotWords

namespace Slots

variable {s : Slots} {trace : Trace} {index : UInt32}

/-! ## Live indices -/

theorem not_live_nil : ¬ Live [] index := by
  rintro ⟨before, after, is, _⟩
  cases before <;> cases is

/-- One more request makes the index live that it took, and ends the life of the one it freed. -/
theorem live_concat {request : Request} {answer : Answer} :
    Live (trace ++ [(request, answer)]) index ↔
      (request, answer) = (.allocate, .taken index.toNat) ∨
        Live trace index ∧ (request, answer) ≠ (.free index, .freed) := by
  constructor
  · rintro ⟨before, after, is, kept⟩
    rcases List.eq_nil_or_concat after with rfl | ⟨after, last, rfl⟩
    · obtain ⟨_, same⟩ := List.append_inj' is rfl
      exact .inl (List.cons.inj same).1
    · have split : trace ++ [(request, answer)] =
          (before ++ (.allocate, .taken index.toNat) :: after) ++ [last] := by
        rw [is]
        simp
      obtain ⟨rfl, same⟩ := List.append_inj' split rfl
      have last_eq : (request, answer) = last := (List.cons.inj same).1
      rw [List.concat_eq_append, List.mem_append, List.mem_singleton, not_or] at kept
      exact .inr ⟨⟨before, after, rfl, kept.1⟩, fun freed => kept.2 (freed.symm.trans last_eq)⟩
  · rintro (taken | ⟨⟨before, after, rfl, kept⟩, different⟩)
    · exact ⟨trace, [], by rw [taken], List.not_mem_nil⟩
    · refine ⟨before, after ++ [(request, answer)], by simp, ?_⟩
      rw [List.mem_append, List.mem_singleton, not_or]
      exact ⟨kept, fun freed => different freed.symm⟩

/-- What holds after the requests of a trace: the indices in use are the live ones. -/
structure Follows (s : Slots) (trace : Trace) : Prop where
  sound : s.Sound
  live : ∀ index : UInt32, s.isAllocated index.toNat = true ↔ Live trace index

theorem follows_new (capacity base : Nat) : (new capacity base).Follows [] where
  sound := sound_new capacity base
  live index := by
    rw [isAllocated_iff]
    refine ⟨fun ⟨slot, _, used⟩ => ?_, fun live => absurd live not_live_nil⟩
    rw [isUsed_new] at used
    cases used

/-- A step keeps it that the indices in use are the live ones. -/
theorem Follows.perform (follows : s.Follows trace) (room : s.base + s.capacity ≤ indexSpace)
    (request : Request) :
    (s.perform request).2.Follows (trace ++ [(request, (s.perform request).1)]) ∧
      (s.perform request).2.capacity = s.capacity ∧ (s.perform request).2.base = s.base := by
  cases request with
  | allocate =>
    cases took : s.allocate with
    | none =>
      simp only [Slots.perform, took]
      refine ⟨⟨follows.sound, fun index => ?_⟩, trivial, trivial⟩
      rw [live_concat, follows.live]
      simp
    | some result =>
      obtain ⟨index, s'⟩ := result
      obtain ⟨slot, first, rfl, rfl⟩ := allocate_eq_some follows.sound took
      simp only [Slots.perform, took]
      refine ⟨⟨follows.sound.taking first.lt first.free, fun i => ?_⟩, capacity_taking s slot, rfl⟩
      rw [isAllocated_taking first.lt, live_concat, follows.live, indexOf_eq room first.lt]
      simp [eq_comm, or_comm]
  | free index =>
    cases freed : s.free index.toNat with
    | error fault =>
      simp only [Slots.perform, freed]
      refine ⟨⟨follows.sound, fun i => ?_⟩, trivial, trivial⟩
      rw [live_concat, follows.live]
      simp
    | ok s' =>
      obtain ⟨slot, is, used, rfl⟩ := free_eq_ok_iff.1 freed
      simp only [Slots.perform, freed]
      refine ⟨⟨follows.sound.freeing used, fun i => ?_⟩, capacity_freeing s slot, rfl⟩
      rw [isAllocated_freeing (lt_of_isUsed used), live_concat, follows.live, ← is, Ne,
        UInt32.toNat_inj]
      simp [eq_comm]

/-! ## The next request -/

/-- What is told of the slots by the indices that are live: how many are in use and which, and
what the next request does. -/
structure Exact (s : Slots) (live : Finset UInt32) : Prop where
  count : s.taken = live.card
  bits : s.taken = (setBits s.bitmap).card
  allocated : ∀ index : UInt32, s.isAllocated index.toNat = true ↔ index ∈ live
  below : ∀ i, bitOf s.bitmap i = true → i < s.capacity
  full : live.card = s.capacity → s.perform .allocate = (.full, s)
  takes : live.card ≠ s.capacity → ∃ slot, s.FirstFree slot ∧
    (s.perform .allocate).1 = .taken (s.base + slot) ∧ slot < s.capacity ∧
    (∀ index : UInt32, index.toNat = s.base + slot → index ∉ live) ∧
    setBits (s.perform .allocate).2.bitmap = insert slot (setBits s.bitmap)
  frees : ∀ index ∈ live, ∃ slot, index.toNat = s.base + slot ∧
    (s.perform (.free index)).1 = .freed ∧
    setBits (s.perform (.free index)).2.bitmap = (setBits s.bitmap).erase slot
  refuses : ∀ index, index ∉ live → s.perform (.free index) = (.notFreed, s)

/-- The words of the indices in use. -/
def liveIndices (s : Slots) : Finset UInt32 :=
  s.usedSlots.image fun slot => UInt32.ofNat (s.base + slot)

theorem toNat_ofNat_index (room : s.base + s.capacity ≤ indexSpace) {slot : Nat}
    (used : s.isUsed slot = true) : (UInt32.ofNat (s.base + slot)).toNat = s.base + slot := by
  have lt := lt_of_isUsed used
  have space : indexSpace = 2 ^ 32 := rfl
  exact UInt32.toNat_ofNat_of_lt (by rw [UInt32.size]; omega)

theorem mem_liveIndices (room : s.base + s.capacity ≤ indexSpace) :
    index ∈ s.liveIndices ↔ s.isAllocated index.toNat = true := by
  rw [liveIndices, Finset.mem_image, isAllocated_iff]
  constructor
  · rintro ⟨slot, used, rfl⟩
    have used := mem_usedSlots.1 used
    exact ⟨slot, toNat_ofNat_index room used, used⟩
  · rintro ⟨slot, is, used⟩
    exact ⟨slot, mem_usedSlots.2 used, by rw [← is, UInt32.ofNat_toNat]⟩

theorem card_liveIndices (room : s.base + s.capacity ≤ indexSpace) :
    s.liveIndices.card = s.usedSlots.card := by
  refine Finset.card_image_of_injOn fun i used j used' same => ?_
  have toNat := congrArg UInt32.toNat same
  rw [toNat_ofNat_index room (mem_usedSlots.1 used),
    toNat_ofNat_index room (mem_usedSlots.1 used')] at toNat
  exact Nat.add_left_cancel toNat

theorem Sound.exact (sound : s.Sound) (room : s.base + s.capacity ≤ indexSpace) :
    s.Exact s.liveIndices where
  count := by rw [sound.taken, card_liveIndices room]
  bits := by rw [setBits_bitmap, sound.taken]
  allocated index := (mem_liveIndices room).symm
  below i set := by
    rw [bitOf_bitmap] at set
    exact lt_of_isUsed set
  full all := by
    rw [card_liveIndices room, ← sound.taken] at all
    rw [perform, (allocate_eq_none_iff sound).2 all]
  takes some := by
    rw [card_liveIndices room, ← sound.taken] at some
    have notNone := (allocate_eq_none_iff sound).not.2 some
    obtain ⟨⟨index, s'⟩, took⟩ := Option.ne_none_iff_exists'.1 notNone
    obtain ⟨slot, first, rfl, rfl⟩ := allocate_eq_some sound took
    simp only [perform, took, indexOf_eq room first.lt, setBits_bitmap]
    refine ⟨slot, first, rfl, first.lt, fun index is live => ?_, usedSlots_taking first.lt⟩
    obtain ⟨other, is', used⟩ := isAllocated_iff.1 ((mem_liveIndices room).1 live)
    have same : other = slot := Nat.add_left_cancel (is'.symm.trans is)
    rw [same, first.free] at used
    cases used
  frees index live := by
    obtain ⟨slot, is, used⟩ := isAllocated_iff.1 ((mem_liveIndices room).1 live)
    have freed : s.free index.toNat = .ok (s.freeing slot) := free_eq_ok_iff.2 ⟨slot, is, used, rfl⟩
    simp only [perform, freed, setBits_bitmap]
    exact ⟨slot, is, trivial, usedSlots_freeing (lt_of_isUsed used)⟩
  refuses index dead := by
    cases freed : s.free index.toNat with
    | error fault => simp only [perform, freed]
    | ok s' =>
      obtain ⟨slot, is, used, _⟩ := free_eq_ok_iff.1 freed
      exact absurd ((mem_liveIndices room).2 (isAllocated_iff.2 ⟨slot, is, used⟩)) dead

end Slots

/-! ## Runs -/

open Slots (Request Trace Live)

/-- The words answer a request as the slots do, and nothing is refused. -/
theorem SlotWords.Stores.perform {w : SlotWords} {s : Slots} (stores : w.Stores s)
    (sound : s.Sound) (few : s.capacity ≤ 2 ^ 31) (room : s.base + s.capacity ≤ indexSpace)
    (request : Request) :
    ∃ w', w.perform request = some ((s.perform request).1, w') ∧
      w'.Stores (s.perform request).2 := by
  cases request with
  | allocate =>
    cases took : s.allocate with
    | none =>
      have none := allocate_eq_none stores ((Slots.allocate_eq_none_iff sound).1 took)
      simp only [SlotWords.perform, Slots.perform, took, none, Option.bind_eq_bind,
        Option.bind_some]
      exact ⟨w, rfl, stores⟩
    | some result =>
      obtain ⟨index, s'⟩ := result
      obtain ⟨taken, w', some, rfl, stores'⟩ := allocate_eq_some stores sound few room took
      simp only [SlotWords.perform, Slots.perform, took, some, Option.bind_eq_bind,
        Option.bind_some]
      exact ⟨w', rfl, stores'⟩
  | free index =>
    cases freed : s.free index.toNat with
    | error fault =>
      have refused := free_eq_error stores freed
      simp only [SlotWords.perform, Slots.perform, freed, refused, Option.bind_eq_bind,
        Option.bind_some]
      exact ⟨w, rfl, stores⟩
    | ok s' =>
      obtain ⟨w', done, stores'⟩ := free_eq_ok stores sound freed
      simp only [SlotWords.perform, Slots.perform, freed, done, Option.bind_eq_bind,
        Option.bind_some]
      exact ⟨w', rfl, stores'⟩

/-- Requests keep it that the indices in use are the live ones and that the words hold the
slots. -/
theorem Slots.Follows.run {w : SlotWords} {s : Slots} {trace : Trace} (follows : s.Follows trace)
    (stores : w.Stores s) (few : s.capacity ≤ 2 ^ 31) (room : s.base + s.capacity ≤ indexSpace)
    (requests : List Request) :
    ∃ trace' s' w', s.run trace requests = (trace', s') ∧ w.run trace requests = some (trace', w') ∧
      s'.Follows trace' ∧ w'.Stores s' ∧ s'.capacity = s.capacity ∧ s'.base = s.base := by
  induction requests generalizing w s trace with
  | nil => exact ⟨trace, s, w, rfl, rfl, follows, stores, rfl, rfl⟩
  | cons request rest ih =>
    obtain ⟨next, capacity, base⟩ := follows.perform room request
    obtain ⟨w₁, answered, stores₁⟩ := stores.perform follows.sound few room request
    obtain ⟨trace', s', w', ran, words, follows', stores', capacity', base'⟩ :=
      ih next stores₁ (capacity ▸ few) (by rw [capacity, base]; exact room)
    refine ⟨trace', s', w', ran, ?_, follows', stores', capacity'.trans capacity, base'.trans base⟩
    rw [SlotWords.run, answered]
    exact words

/-- **The slots are the live indices.** After any requests the count is that of the set bits and
that of the live indices, and an index is in use iff it is live. The next request for an index is
refused iff as many are live as there are slots, and changes nothing then; otherwise it takes the
first free slot going round from the cursor, whose index was not live, and sets its bit alone. An
index is freed iff it is live, which clears its bit alone. In words nothing overflows, goes below
zero, is divided by zero or shifted out of its word, and the words are the bitmap. -/
theorem Slots.run_exact (capacity base : UInt32) (few : capacity.toNat ≤ 2 ^ 31)
    (room : base.toNat + capacity.toNat ≤ indexSpace) (requests : List Request) :
    ∃ trace s w live, (Slots.new capacity.toNat base.toNat).run [] requests = (trace, s) ∧
      (SlotWords.new capacity base).run [] requests = some (trace, w) ∧ w.Stores s ∧
      s.capacity = capacity.toNat ∧ s.base = base.toNat ∧
      (∀ index, index ∈ live ↔ Live trace index) ∧ s.Exact live := by
  have size := Slots.capacity_new capacity.toNat base.toNat
  obtain ⟨trace, s, w, ran, words, follows, stores, capacity_eq, base_eq⟩ :=
    (Slots.follows_new capacity.toNat base.toNat).run SlotWords.stores_new (by rwa [size])
      (by rw [size]; exact room) requests
  have room' : s.base + s.capacity ≤ indexSpace := by
    rw [capacity_eq, base_eq, size]
    exact room
  refine ⟨trace, s, w, s.liveIndices, ran, words, stores, capacity_eq.trans size, base_eq,
    fun index => ?_, follows.sound.exact room'⟩
  rw [Slots.mem_liveIndices room']
  exact follows.live index

/-- The slots of a small table, after more requests than it has slots and a slot freed twice. -/
theorem Slots.run_exact_small :
    (2 : UInt32).toNat ≤ 2 ^ 31 ∧ (5 : UInt32).toNat + (2 : UInt32).toNat ≤ indexSpace ∧
      ∃ trace s w live,
        (Slots.new (2 : UInt32).toNat (5 : UInt32).toNat).run []
          [.allocate, .allocate, .allocate, .free 5, .free 5, .allocate] = (trace, s) ∧
        (SlotWords.new 2 5).run []
          [.allocate, .allocate, .allocate, .free 5, .free 5, .allocate] = some (trace, w) ∧
        w.Stores s ∧ s.capacity = (2 : UInt32).toNat ∧ s.base = (5 : UInt32).toNat ∧
        (∀ index, index ∈ live ↔ Live trace index) ∧ s.Exact live :=
  ⟨by decide, by decide, Slots.run_exact 2 5 (by decide) (by decide) _⟩

end SurfaceShading
