/-
  The slots in machine words. In the bitmap bit `i` of the words is set iff slot `i` is in use
  (`Slots.bitOf_bitmap`). `SlotWords` takes and frees slots on words of 64 bits and numbers of 32
  bits, each sum, difference, remainder, shift and access to a word refused where it would wrap or
  is not defined. For at most `2 ^ 31` slots whose indices are words nothing is refused, and what
  the words hold goes on being what the slots are (`SlotWords.Stores`).
-/
import SurfaceShading.Proofs.Layout.Rule
import SurfaceShading.Proofs.Texture.Allocation
import Mathlib.Data.Nat.Bitwise

namespace SurfaceShading

/-! ## Bits -/

/-- A bit of words of 64 bits; the lowest bit of the first word is the first one. -/
def bitOf (words : List Nat) (i : Nat) : Bool := (words.getD (i / 64) 0).testBit (i % 64)

/-- The bits that are set in words of 64 bits. -/
def setBits (words : List Nat) : Finset Nat :=
  (Finset.range (64 * words.length)).filter fun i => bitOf words i = true

/-- The number that is put together of bits, the lowest first, has these bits. -/
theorem testBit_foldr_range (bits : Nat → Bool) (count place : Nat) :
    ((List.range count).foldr (fun bit n => 2 * n + (bits bit).toNat) 0).testBit place =
      (decide (place < count) && bits place) := by
  induction count generalizing bits place with
  | zero => simp
  | succ count ih =>
    rw [List.range_succ_eq_map, List.foldr_cons, List.foldr_map, ← Nat.bit_val]
    cases place with
    | zero => simp
    | succ place => rw [Nat.testBit_bit_succ, ih]; simp

theorem bitOf_set {words : List Nat} {k : Nat} (lt : k < words.length) (word i : Nat) :
    bitOf (words.set k word) i = if i / 64 = k then word.testBit (i % 64) else bitOf words i := by
  unfold bitOf
  rw [List.getD_eq_getElem?_getD, List.getElem?_set]
  by_cases same : k = i / 64
  · rw [if_pos same, if_pos lt, if_pos same.symm, Option.getD_some]
  · rw [if_neg same, if_neg (Ne.symm same), List.getD_eq_getElem?_getD]

namespace Slots

theorem bitOf_bitmap (s : Slots) (i : Nat) : bitOf s.bitmap i = s.isUsed i := by
  unfold bitOf bitmap
  rw [List.getD_eq_getElem?_getD, List.getElem?_map]
  by_cases inside : i / 64 < (s.capacity + 63) / 64
  · rw [List.getElem?_range inside, Option.map_some, Option.getD_some, testBit_foldr_range,
      Nat.div_add_mod, decide_eq_true (Nat.mod_lt i (by decide)), Bool.true_and]
  · have out : s.capacity ≤ i := by omega
    have free : s.isUsed i = false := by
      by_contra used
      have lt := lt_of_isUsed (Bool.not_eq_false _ ▸ used)
      omega
    rw [List.getElem?_eq_none (by simpa using inside), free]
    exact Nat.zero_testBit _

theorem length_bitmap (s : Slots) : s.bitmap.length = (s.capacity + 63) / 64 := by
  simp only [bitmap, List.length_map, List.length_range]

/-- Words are the bitmap if there are as many and they have the same bits. -/
theorem eq_bitmap {s : Slots} {words : List Nat} (length : words.length = (s.capacity + 63) / 64)
    (small : ∀ word ∈ words, word < 2 ^ 64) (bits : ∀ i, bitOf words i = s.isUsed i) :
    words = s.bitmap := by
  refine List.ext_getElem (length.trans s.length_bitmap.symm) fun k lt lt' => ?_
  refine Nat.eq_of_testBit_eq fun place => ?_
  have low : (s.bitmap[k]).testBit place = (decide (place < 64) && s.isUsed (64 * k + place)) := by
    simp only [bitmap, List.getElem_map, List.getElem_range]
    exact testBit_foldr_range _ 64 place
  rw [low]
  by_cases inside : place < 64
  · have bit := bits (64 * k + place)
    have quotient : (64 * k + place) / 64 = k := by omega
    have remainder : (64 * k + place) % 64 = place := by omega
    rw [bitOf, quotient, remainder, List.getD_eq_getElem?_getD, List.getElem?_eq_getElem lt] at bit
    rw [← bit, decide_eq_true inside, Bool.true_and, Option.getD_some]
  · have above : words[k] < 2 ^ place :=
      Nat.lt_of_lt_of_le (small _ (List.getElem_mem lt))
        (Nat.pow_le_pow_right (by decide) (by omega))
    rw [Nat.testBit_lt_two_pow above, decide_eq_false inside, Bool.false_and]

theorem setBits_bitmap (s : Slots) : setBits s.bitmap = s.usedSlots := by
  ext i
  rw [mem_usedSlots, setBits, Finset.mem_filter, Finset.mem_range, bitOf_bitmap]
  refine ⟨And.right, fun used => ⟨?_, used⟩⟩
  have lt := lt_of_isUsed used
  rw [length_bitmap]
  omega

end Slots

/-! ## Words -/

/-- The slots as they lie in words: a bit for each slot, and numbers of 32 bits. -/
structure SlotWords where
  bits : Array UInt64
  capacity : UInt32
  base : UInt32
  cursor : UInt32
  taken : UInt32

namespace SlotWords

open Layout.Checked (add sub add_eq)

/-- A remainder, refused where it is not defined. -/
def rem (a b : UInt32) : Option UInt32 := if b = 0 then none else some (a % b)

/-- The word of one bit, refused if the place lies outside of a word. -/
def mask (place : UInt32) : Option UInt64 :=
  if place.toNat < 64 then some (1 <<< place.toUInt64) else none

/-- All slots free. -/
def new (capacity base : UInt32) : SlotWords :=
  ⟨Array.replicate ((capacity.toNat + 63) / 64) 0, capacity, base, 0, 0⟩

/-- The word in which a slot has its bit, and this bit. -/
def word (w : SlotWords) (slot : UInt32) : Option (UInt64 × UInt64) := do
  let bits ← w.bits[(slot / 64).toNat]?
  let bit ← mask (slot % 64)
  some (bits, bit)

def isUsed (w : SlotWords) (slot : UInt32) : Option Bool := do
  let (bits, bit) ← w.word slot
  some (bits &&& bit != 0)

/-- The first free slot that is met after some steps from the cursor, with so many steps left. -/
def search (w : SlotWords) (step : UInt32) : Nat → Option (Option UInt32)
  | 0 => some none
  | left + 1 => do
    let sum ← add w.cursor step
    let slot ← rem sum w.capacity
    if ← w.isUsed slot then
      let next ← add step 1
      search w next left
    else some (some slot)

/-- Takes the first free slot from the cursor on. -/
def allocate (w : SlotWords) : Option (Option UInt32 × SlotWords) :=
  if w.taken = w.capacity then some (none, w)
  else do
    match ← w.search 0 w.capacity.toNat with
    | none => some (none, w)
    | some slot =>
      let (bits, bit) ← w.word slot
      let taken ← add w.taken 1
      let next ← add slot 1
      let cursor ← rem next w.capacity
      let index ← add w.base slot
      some (some index,
        { w with
          bits := w.bits.setIfInBounds (slot / 64).toNat (bits ||| bit)
          cursor := cursor
          taken := taken })

/-- The slot of an index, counted from the base. -/
def relative? (w : SlotWords) (index : UInt32) : Option UInt32 := do
  let slot ← sub index w.base
  if slot < w.capacity then some slot else none

/-- Frees an index. Says whether it was in use. -/
def free (w : SlotWords) (index : UInt32) : Option (Bool × SlotWords) :=
  match w.relative? index with
  | none => some (false, w)
  | some slot => do
    if ← w.isUsed slot then
      let (bits, bit) ← w.word slot
      let taken ← sub w.taken 1
      some (true,
        { w with
          bits := w.bits.setIfInBounds (slot / 64).toNat (bits &&& ~~~bit)
          taken := taken })
    else some (false, w)

/-! ## What the words hold -/

/-- The words hold the slots. -/
structure Stores (w : SlotWords) (s : Slots) : Prop where
  capacity : w.capacity.toNat = s.capacity
  base : w.base.toNat = s.base
  cursor : w.cursor.toNat = s.cursor
  taken : w.taken.toNat = s.taken
  bits : w.bits.toList.map UInt64.toNat = s.bitmap

variable {w : SlotWords} {s s' : Slots} {slot index : UInt32}

theorem rem_eq {a b : UInt32} (positive : 0 < b.toNat) : rem a b = some (a % b) := by
  refine if_neg fun zero => ?_
  rw [zero] at positive
  exact absurd positive (by decide)

/-- The mask of a place has the one bit of this place. -/
theorem mask_eq {place : UInt32} (lt : place.toNat < 64) :
    ∃ bit, mask place = some bit ∧ bit.toNat = 2 ^ place.toNat := by
  refine ⟨_, if_pos lt, ?_⟩
  rw [UInt64.toNat_shiftLeft, UInt32.toNat_toUInt64, Nat.mod_eq_of_lt lt, UInt64.toNat_one,
    Nat.one_shiftLeft]
  exact Nat.mod_eq_of_lt (Nat.pow_lt_pow_right (by decide) lt)

theorem stores_new {capacity base : UInt32} :
    (new capacity base).Stores (.new capacity.toNat base.toNat) where
  capacity := (Slots.capacity_new _ _).symm
  base := rfl
  cursor := rfl
  taken := rfl
  bits := by
    refine Slots.eq_bitmap ?_ ?_ fun i => ?_
    · simp [new]
    · intro word mem
      obtain ⟨bits, _, rfl⟩ := List.mem_map.1 mem
      exact bits.toNat_lt
    · rw [Slots.isUsed_new, bitOf, List.getD_eq_getElem?_getD]
      simp only [new, Array.toList_replicate, List.map_replicate, List.getElem?_replicate]
      split
      · exact Nat.zero_testBit _
      · exact Nat.zero_testBit _

/-- The word of a slot is that of the bitmap. -/
theorem Stores.word (stores : w.Stores s) (lt : slot.toNat < s.capacity) :
    ∃ bits bit, w.word slot = some (bits, bit) ∧ bit.toNat = 2 ^ (slot.toNat % 64) ∧
      s.bitmap.getD (slot.toNat / 64) 0 = bits.toNat := by
  have place : (slot % 64).toNat < 64 := by
    rw [UInt32.toNat_mod]
    exact Nat.mod_lt _ (by decide)
  obtain ⟨bit, masked, toNat⟩ := mask_eq place
  have size : w.bits.size = (s.capacity + 63) / 64 := by
    rw [← s.length_bitmap, ← stores.bits, List.length_map, Array.length_toList]
  have inside : slot.toNat / 64 < w.bits.size := by omega
  have word : (slot / 64).toNat = slot.toNat / 64 := by rw [UInt32.toNat_div]; rfl
  refine ⟨w.bits[slot.toNat / 64], bit, ?_, ?_, ?_⟩
  · rw [SlotWords.word, word, Array.getElem?_eq_getElem inside, masked]
    rfl
  · rw [toNat, UInt32.toNat_mod]
    rfl
  · rw [← stores.bits, List.getD_eq_getElem?_getD, List.getElem?_map, Array.getElem?_toList,
      Array.getElem?_eq_getElem inside]
    rfl

theorem Stores.isUsed (stores : w.Stores s) (lt : slot.toNat < s.capacity) :
    w.isUsed slot = some (s.isUsed slot.toNat) := by
  obtain ⟨bits, bit, word, masks, is⟩ := stores.word lt
  have used : s.isUsed slot.toNat = bits.toNat.testBit (slot.toNat % 64) := by
    rw [← s.bitOf_bitmap, bitOf, is]
  have both : (bits &&& bit).toNat = (s.isUsed slot.toNat).toNat * 2 ^ (slot.toNat % 64) := by
    rw [UInt64.toNat_and, masks, Nat.and_two_pow, used]
  rw [SlotWords.isUsed, word, Option.bind_eq_bind, Option.bind_some, Option.some.injEq]
  cases free : s.isUsed slot.toNat with
  | false =>
    rw [free, Bool.toNat_false, Nat.zero_mul] at both
    rw [UInt64.toNat_inj.1 (both.trans UInt64.toNat_zero.symm)]
    rfl
  | true =>
    rw [free, Bool.toNat_true, Nat.one_mul] at both
    refine bne_iff_ne.2 fun zero => ?_
    rw [zero, UInt64.toNat_zero] at both
    exact absurd both (Nat.two_pow_pos _).ne

/-- The words hold the slots again once the word of a slot got the right bits. -/
theorem Stores.set (stores : w.Stores s) (lt : slot.toNat < s.capacity) {changed : UInt64}
    {s' : Slots} (capacity : s'.capacity = s.capacity)
    (bits : ∀ i, i / 64 = slot.toNat / 64 → changed.toNat.testBit (i % 64) = s'.isUsed i)
    (others : ∀ i, i / 64 ≠ slot.toNat / 64 → s'.isUsed i = s.isUsed i) :
    (w.bits.setIfInBounds (slot / 64).toNat changed).toList.map UInt64.toNat = s'.bitmap := by
  have word : (slot / 64).toNat = slot.toNat / 64 := by rw [UInt32.toNat_div]; rfl
  rw [word, Array.toList_setIfInBounds, List.map_set, stores.bits]
  refine Slots.eq_bitmap ?_ ?_ fun i => ?_
  · rw [List.length_set, s.length_bitmap, capacity]
  · intro word mem
    rcases List.mem_or_eq_of_mem_set mem with old | rfl
    · rw [← stores.bits] at old
      obtain ⟨bits, _, rfl⟩ := List.mem_map.1 old
      exact bits.toNat_lt
    · exact changed.toNat_lt
  · have inside : slot.toNat / 64 < s.bitmap.length := by
      rw [s.length_bitmap]
      omega
    rw [bitOf_set inside]
    split
    · next same => exact bits i same
    · next other => rw [s.bitOf_bitmap, others i other]

/-! ## Taking and freeing -/

/-- The search in words meets what the search among the slots does, and nothing is refused. -/
theorem Stores.search (stores : w.Stores s) (few : s.capacity ≤ 2 ^ 31)
    (cursor : s.cursor < s.capacity) {step : UInt32} {left : Nat}
    (round : step.toNat + left = s.capacity) :
    w.search step left =
      some ((s.freeFrom? ((s.cursor + step.toNat) % s.capacity) left).map UInt32.ofNat) := by
  induction left generalizing step with
  | zero => rfl
  | succ left ih =>
    have sum : w.cursor.toNat + step.toNat < UInt32.size := by
      rw [stores.cursor, UInt32.size]
      omega
    have positive : 0 < w.capacity.toNat := by rw [stores.capacity]; omega
    have met : ((w.cursor + step) % w.capacity).toNat = (s.cursor + step.toNat) % s.capacity := by
      rw [UInt32.toNat_mod, UInt32.toNat_add, Nat.mod_eq_of_lt sum, stores.cursor, stores.capacity]
    have lt : ((w.cursor + step) % w.capacity).toNat < s.capacity := by
      rw [met]
      exact Nat.mod_lt _ (by omega)
    have next : step.toNat + (1 : UInt32).toNat < UInt32.size := by
      rw [UInt32.toNat_one, UInt32.size]
      omega
    have toNat_next : (step + 1).toNat = step.toNat + 1 := by
      rw [UInt32.toNat_add, Nat.mod_eq_of_lt next, UInt32.toNat_one]
    simp only [SlotWords.search, add_eq sum, rem_eq positive, stores.isUsed lt, add_eq next,
      Option.bind_eq_bind, Option.bind_some, met, Slots.freeFrom?]
    split
    · have later : (step + 1).toNat + left = s.capacity := by omega
      have onward := ih later
      rw [onward, toNat_next, Nat.mod_add_mod, Nat.add_assoc]
    · rw [Option.map_some, ← met, UInt32.ofNat_toNat]

theorem allocate_eq_none (stores : w.Stores s) (full : s.taken = s.capacity) :
    w.allocate = some (none, w) := by
  refine if_pos (UInt32.toNat_inj.1 ?_)
  rw [stores.taken, stores.capacity, full]

/-- Two bits of one word are one if they stand at one place in it. -/
theorem same_place {i j : Nat} (word : i / 64 = j / 64) : j % 64 = i % 64 ↔ i = j := by omega

theorem testBit_or_mask {bits bit : UInt64} {j : Nat} (masks : bit.toNat = 2 ^ (j % 64)) {i : Nat}
    (word : i / 64 = j / 64) :
    (bits ||| bit).toNat.testBit (i % 64) = (bits.toNat.testBit (i % 64) || i == j) := by
  rw [UInt64.toNat_or, masks, Nat.testBit_or, Nat.testBit_two_pow,
    decide_eq_decide.2 (same_place word)]
  rfl

theorem testBit_and_not_mask {bits bit : UInt64} {j : Nat} (masks : bit.toNat = 2 ^ (j % 64))
    {i : Nat} (word : i / 64 = j / 64) :
    (bits &&& ~~~bit).toNat.testBit (i % 64) = (bits.toNat.testBit (i % 64) && i != j) := by
  have inside : i % 64 < 64 := Nat.mod_lt _ (by decide)
  have complement : (~~~bit).toNat = 2 ^ 64 - (2 ^ (j % 64) + 1) := by
    rw [UInt64.toNat_not, masks, Nat.sub_sub, Nat.add_comm 1]
    rfl
  have small : 2 ^ (j % 64) < 2 ^ 64 := Nat.pow_lt_pow_right (by decide) (Nat.mod_lt _ (by decide))
  rw [UInt64.toNat_and, complement, Nat.testBit_and, Nat.testBit_two_pow_sub_succ small,
    Nat.testBit_two_pow, decide_eq_true inside, Bool.true_and, decide_eq_decide.2 (same_place word)]
  rfl

/-- The bit of a free slot is set. -/
theorem Stores.bits_taking (stores : w.Stores s) (lt : slot.toNat < s.capacity) {bits bit : UInt64}
    (masks : bit.toNat = 2 ^ (slot.toNat % 64))
    (is : s.bitmap.getD (slot.toNat / 64) 0 = bits.toNat) :
    (w.bits.setIfInBounds (slot / 64).toNat (bits ||| bit)).toList.map UInt64.toNat =
      (s.taking slot.toNat).bitmap := by
  refine stores.set lt (Slots.capacity_taking s _) (fun i same => ?_) fun i other => ?_
  · rw [testBit_or_mask masks same, Slots.isUsed_taking lt, ← s.bitOf_bitmap, bitOf, same, is]
  · have different : (i == slot.toNat) = false := by
      rw [beq_eq_false_iff_ne]
      rintro rfl
      exact other rfl
    rw [Slots.isUsed_taking lt, different, Bool.or_false]

/-- The bit of a slot in use is cleared. -/
theorem Stores.bits_freeing (stores : w.Stores s) (lt : slot.toNat < s.capacity) {bits bit : UInt64}
    (masks : bit.toNat = 2 ^ (slot.toNat % 64))
    (is : s.bitmap.getD (slot.toNat / 64) 0 = bits.toNat) :
    (w.bits.setIfInBounds (slot / 64).toNat (bits &&& ~~~bit)).toList.map UInt64.toNat =
      (s.freeing slot.toNat).bitmap := by
  refine stores.set lt (Slots.capacity_freeing s _) (fun i same => ?_) fun i other => ?_
  · rw [testBit_and_not_mask masks same, Slots.isUsed_freeing lt, ← s.bitOf_bitmap, bitOf, same, is]
  · have different : (i != slot.toNat) = true := by
      rw [bne_iff_ne]
      rintro rfl
      exact other rfl
    rw [Slots.isUsed_freeing lt, different, Bool.and_true]

/-- Taking a slot in words refuses nothing and takes the same slot. -/
theorem allocate_eq_some (stores : w.Stores s) (sound : s.Sound) (few : s.capacity ≤ 2 ^ 31)
    (room : s.base + s.capacity ≤ indexSpace) {index : Nat}
    (took : s.allocate = some (index, s')) :
    ∃ taken w', w.allocate = some (some taken, w') ∧ taken.toNat = index ∧ w'.Stores s' := by
  have notFull : s.taken ≠ s.capacity := fun full => by
    rw [(Slots.allocate_eq_none_iff sound).2 full] at took
    cases took
  have below : s.taken < s.capacity := Nat.lt_of_le_of_ne sound.taken_le notFull
  have cursor : s.cursor < s.capacity := sound.cursor (by omega)
  obtain ⟨found, search⟩ := Slots.exists_firstFree? sound below
  have lt : found < s.capacity := (Slots.firstFree?_eq_some cursor search).lt
  have size : UInt32.size = 2 ^ 32 := rfl
  have space : indexSpace = 2 ^ 32 := rfl
  obtain ⟨slot, rfl⟩ : ∃ slot : UInt32, slot.toNat = found :=
    ⟨.ofNat found, UInt32.toNat_ofNat_of_lt (by omega)⟩
  obtain ⟨rfl, rfl⟩ : s.base + slot.toNat = index ∧ s.taking slot.toNat = s' := by
    rw [Slots.allocate, if_neg notFull, search, Option.some.injEq, Prod.mk.injEq,
      Slots.indexOf_eq room lt] at took
    exact took
  have start : (0 : UInt32).toNat + w.capacity.toNat = s.capacity := by
    rw [UInt32.toNat_zero, stores.capacity, Nat.zero_add]
  have met : w.search 0 w.capacity.toNat = some (some slot) := by
    rw [stores.search few cursor start, UInt32.toNat_zero, Nat.add_zero, Nat.mod_eq_of_lt cursor,
      stores.capacity, ← Slots.firstFree?, search, Option.map_some, UInt32.ofNat_toNat]
  obtain ⟨bits, bit, word, masks, is⟩ := stores.word lt
  have different : w.taken ≠ w.capacity := fun same => by
    rw [← stores.taken, ← stores.capacity, same] at notFull
    exact notFull rfl
  have positive : 0 < w.capacity.toNat := by rw [stores.capacity]; omega
  have count : w.taken.toNat + (1 : UInt32).toNat < UInt32.size := by
    rw [stores.taken, UInt32.toNat_one]
    omega
  have next : slot.toNat + (1 : UInt32).toNat < UInt32.size := by
    rw [UInt32.toNat_one]
    omega
  have sum : w.base.toNat + slot.toNat < UInt32.size := by
    rw [stores.base]
    omega
  refine ⟨w.base + slot, ⟨w.bits.setIfInBounds (slot / 64).toNat (bits ||| bit), w.capacity, w.base,
    (slot + 1) % w.capacity, w.taken + 1⟩, ?_, ?_, ?_⟩
  · rw [allocate, if_neg different, met]
    simp only [word, add_eq count, add_eq next, rem_eq positive, add_eq sum, Option.bind_eq_bind,
      Option.bind_some]
  · rw [UInt32.toNat_add, Nat.mod_eq_of_lt sum, stores.base]
  · exact {
      capacity := stores.capacity.trans (Slots.capacity_taking s _).symm
      base := stores.base
      cursor := by
        show ((slot + 1) % w.capacity).toNat = (slot.toNat + 1) % s.capacity
        rw [UInt32.toNat_mod, UInt32.toNat_add, Nat.mod_eq_of_lt next, stores.capacity,
          UInt32.toNat_one]
      taken := by
        show (w.taken + 1).toNat = s.taken + 1
        rw [UInt32.toNat_add, Nat.mod_eq_of_lt count, stores.taken, UInt32.toNat_one]
      bits := stores.bits_taking lt masks is }

/-- Counting from the base never goes below it. -/
theorem relative?_eq (stores : w.Stores s) (index : UInt32) :
    (w.relative? index).map UInt32.toNat = s.relative? index.toNat := by
  unfold relative? Slots.relative?
  by_cases below : s.base ≤ index.toNat
  · have least : w.base ≤ index := by rwa [UInt32.le_iff_toNat_le, stores.base]
    have slot : (index - w.base).toNat = index.toNat - s.base := by
      rw [UInt32.toNat_sub_of_le _ _ least, stores.base]
    have few : index - w.base < w.capacity ↔ index.toNat - s.base < s.capacity := by
      rw [UInt32.lt_iff_toNat_lt, slot, stores.capacity]
    rw [sub, if_pos (UInt32.le_iff_toNat_le.1 least), Option.bind_eq_bind, Option.bind_some]
    by_cases inside : index.toNat - s.base < s.capacity
    · rw [if_pos (few.2 inside), if_pos ⟨below, inside⟩, Option.map_some, slot]
    · rw [if_neg (few.not.2 inside), if_neg fun both => inside both.2, Option.map_none]
  · have refused : sub index w.base = none := if_neg fun least => below (stores.base ▸ least)
    rw [refused, if_neg fun both => below both.1]
    rfl

/-- Freeing in words refuses nothing and frees the same slot. -/
theorem free_eq_ok (stores : w.Stores s) (sound : s.Sound) (freed : s.free index.toNat = .ok s') :
    ∃ w', w.free index = some (true, w') ∧ w'.Stores s' := by
  obtain ⟨found, is, used, rfl⟩ := Slots.free_eq_ok_iff.1 freed
  have same : (w.relative? index).map UInt32.toNat = some found := by
    rw [relative?_eq stores, Slots.relative?_eq_some]
    exact ⟨is, Slots.lt_of_isUsed used⟩
  obtain ⟨slot, relative, rfl⟩ := Option.map_eq_some_iff.1 same
  have lt := Slots.lt_of_isUsed used
  obtain ⟨bits, bit, word, masks, lies⟩ := stores.word lt
  have positive : (1 : UInt32).toNat ≤ w.taken.toNat := by
    rw [stores.taken]
    exact sound.taken_pos used
  have counted : sub w.taken 1 = some (w.taken - 1) := if_pos positive
  refine ⟨⟨w.bits.setIfInBounds (slot / 64).toNat (bits &&& ~~~bit), w.capacity, w.base, w.cursor,
    w.taken - 1⟩, ?_, ?_⟩
  · simp only [free, relative, stores.isUsed lt, used, word, counted, Option.bind_eq_bind,
      Option.bind_some, if_true]
  · exact {
      capacity := stores.capacity.trans (Slots.capacity_freeing s _).symm
      base := stores.base
      cursor := stores.cursor
      taken := by
        show (w.taken - 1).toNat = s.taken - 1
        rw [UInt32.toNat_sub_of_le _ _ (UInt32.le_iff_toNat_le.2 positive), stores.taken,
          UInt32.toNat_one]
      bits := stores.bits_freeing lt masks lies }

/-- What is not freed among the slots is not freed in words, and this is no refusal. -/
theorem free_eq_error (stores : w.Stores s) {fault : FreeFault}
    (refused : s.free index.toNat = .error fault) : w.free index = some (false, w) := by
  have relative := relative?_eq stores index
  unfold Slots.free at refused
  unfold free
  cases found : w.relative? index with
  | none => rfl
  | some slot =>
    rw [found, Option.map_some] at relative
    rw [← relative] at refused
    have lt : slot.toNat < s.capacity := (Slots.relative?_eq_some.1 relative.symm).2
    cases used : s.isUsed slot.toNat with
    | false => simp only [stores.isUsed lt, used, Option.bind_eq_bind, Option.bind_some, if_false,
        Bool.false_eq_true]
    | true =>
      simp only [used, if_true] at refused
      cases refused

end SlotWords

end SurfaceShading
