/-
  Bytes of a buffer. Data that is laid over a buffer stands in its own range and leaves the rest
  as it was; so of data laid over a buffer piece by piece, at ranges that increase, every piece
  is found again (`slice_layAll`), and no byte outside all ranges changes
  (`getElem?_layAll_of_outside`). Words are written with the least significant byte first
  (`number_ofWord`), and are read back (`toWords_flatMap_ofWord`).
-/
import SurfaceShading.Material.Value

namespace SurfaceShading

namespace Bytes

/-- The bytes of a range. -/
def slice (buffer : List UInt8) (offset length : Nat) : List UInt8 :=
  (buffer.drop offset).take length

/-- Lays pieces of data over a buffer, one after the other, each at its offset. -/
def layAll (buffer : List UInt8) (pieces : List (Nat × List UInt8)) : List UInt8 :=
  pieces.foldl (fun buffer piece => overwrite buffer piece.1 piece.2) buffer

/-- The number that bytes write, the least significant first. -/
def number : List UInt8 → Nat
  | [] => 0
  | b :: rest => b.toNat + 256 * number rest

/-- Bytes that write words one after the other, each with the least significant byte first. -/
structure Writes (bytes : List UInt8) (words : List UInt32) : Prop where
  length : bytes.length = 4 * words.length
  word : ∀ i (lt : i < words.length), number (slice bytes (4 * i) 4) = words[i].toNat

/-! ## Ranges -/

theorem getElem?_slice (buffer : List UInt8) (offset : Nat) {length i : Nat} (lt : i < length) :
    (slice buffer offset length)[i]? = buffer[offset + i]? := by
  rw [slice, List.getElem?_take_of_lt lt, List.getElem?_drop]

theorem slice_eq_of_getElem? {buffer data : List UInt8} {offset : Nat}
    (same : ∀ i < data.length, buffer[offset + i]? = data[i]?) :
    slice buffer offset data.length = data := by
  refine List.ext_getElem? fun i => ?_
  by_cases lt : i < data.length
  · rw [getElem?_slice buffer offset lt, same i lt]
  · rw [List.getElem?_eq_none (by simp [slice]; omega), List.getElem?_eq_none (by omega)]

theorem getElem?_overwrite_of_outside (buffer : List UInt8) {offset : Nat} {data : List UInt8}
    {i : Nat} (outside : i < offset ∨ offset + data.length ≤ i) :
    (overwrite buffer offset data)[i]? = buffer[i]? := by
  by_cases there : i < buffer.length
  · rcases outside with before | behind
    · have first : i < (buffer.take offset).length := by rw [List.length_take]; omega
      rw [overwrite, List.append_assoc, List.getElem?_append_left first,
        List.getElem?_take_of_lt before]
    · have front : (buffer.take offset ++ data.take (buffer.length - offset)).length =
          offset + data.length := by
        rw [List.length_append, List.length_take, List.length_take]
        omega
      rw [overwrite, List.getElem?_append_right (by omega), List.getElem?_drop, front,
        Nat.add_sub_cancel' behind]
  · rw [List.getElem?_eq_none (by rw [length_overwrite]; omega),
      List.getElem?_eq_none (by omega)]

theorem getElem?_overwrite_of_inside {buffer : List UInt8} {offset : Nat} {data : List UInt8}
    {i : Nat} (room : offset + data.length ≤ buffer.length) (lt : i < data.length) :
    (overwrite buffer offset data)[offset + i]? = data[i]? := by
  have front : (buffer.take offset).length = offset := by rw [List.length_take]; omega
  have whole : data.take (buffer.length - offset) = data := List.take_of_length_le (by omega)
  rw [overwrite, List.append_assoc, whole, List.getElem?_append_right (by omega), front,
    Nat.add_sub_cancel_left, List.getElem?_append_left lt]

/-- Data of the length of a buffer replaces it. -/
theorem overwrite_all {buffer data : List UInt8} (same : data.length = buffer.length) :
    overwrite buffer 0 data = data := by
  rw [overwrite, List.take_zero, List.nil_append, List.take_of_length_le (by omega),
    List.drop_eq_nil_of_le (by omega), List.append_nil]

/-! ## Pieces -/

@[simp] theorem length_layAll (buffer : List UInt8) (pieces : List (Nat × List UInt8)) :
    (layAll buffer pieces).length = buffer.length := by
  induction pieces generalizing buffer with
  | nil => rfl
  | cons piece rest ih => exact (ih _).trans (length_overwrite _ _ _)

theorem layAll_append (buffer : List UInt8) (before after : List (Nat × List UInt8)) :
    layAll buffer (before ++ after) = layAll (layAll buffer before) after :=
  List.foldl_append

theorem getElem?_layAll_of_outside (buffer : List UInt8) {pieces : List (Nat × List UInt8)}
    {i : Nat} (outside : ∀ piece ∈ pieces, i < piece.1 ∨ piece.1 + piece.2.length ≤ i) :
    (layAll buffer pieces)[i]? = buffer[i]? := by
  induction pieces generalizing buffer with
  | nil => rfl
  | cons piece rest ih =>
    have later := ih (overwrite buffer piece.1 piece.2) fun piece' mem =>
      outside piece' (List.mem_cons_of_mem _ mem)
    exact later.trans (getElem?_overwrite_of_outside buffer (outside piece List.mem_cons_self))

/-- A piece is found again if every later one starts behind it. -/
theorem slice_layAll {buffer : List UInt8} {pieces : List (Nat × List UInt8)}
    (increasing : pieces.Pairwise fun a b => a.1 + a.2.length ≤ b.1)
    {piece : Nat × List UInt8} (mem : piece ∈ pieces)
    (room : piece.1 + piece.2.length ≤ buffer.length) :
    slice (layAll buffer pieces) piece.1 piece.2.length = piece.2 := by
  induction pieces generalizing buffer with
  | nil => cases mem
  | cons first rest ih =>
    obtain ⟨behind, increasing⟩ := List.pairwise_cons.1 increasing
    rcases List.mem_cons.1 mem with rfl | mem
    · refine slice_eq_of_getElem? fun i lt => ?_
      have kept : (layAll (overwrite buffer piece.1 piece.2) rest)[piece.1 + i]? =
          (overwrite buffer piece.1 piece.2)[piece.1 + i]? :=
        getElem?_layAll_of_outside _ fun later mem => .inl (by have := behind later mem; omega)
      exact kept.trans (getElem?_overwrite_of_inside room lt)
    · exact ih increasing mem (by rw [length_overwrite]; exact room)

/-! ## Words -/

theorem number_ofWord (w : UInt32) : number (ofWord w) = w.toNat := by
  have lt := w.toNat_lt
  have bytes : number (ofWord w) = w.toNat % 256 + 256 * (w.toNat / 2 ^ 8 % 256 +
      256 * (w.toNat / 2 ^ 16 % 256 + 256 * (w.toNat / 2 ^ 24 % 256))) := by
    simp only [ofWord, number, UInt32.toNat_toUInt8, UInt32.toNat_shiftRight,
      Nat.shiftRight_eq_div_pow]
    rfl
  omega

theorem toNat_toWord (a b c d : UInt8) : (toWord a b c d).toNat = number [a, b, c, d] := by
  have ha := a.toNat_lt
  have hb := b.toNat_lt
  have hc := c.toNat_lt
  have hd := d.toNat_lt
  -- Each byte stands above all those before it, so that "or" adds it.
  have two : a.toNat ||| b.toNat <<< 8 = a.toNat + 2 ^ 8 * b.toNat := by
    rw [Nat.or_comm, ← Nat.shiftLeft_add_eq_or_of_lt ha, Nat.shiftLeft_eq]
    omega
  have three : a.toNat + 2 ^ 8 * b.toNat ||| c.toNat <<< 16 =
      a.toNat + 2 ^ 8 * b.toNat + 2 ^ 16 * c.toNat := by
    rw [Nat.or_comm, ← Nat.shiftLeft_add_eq_or_of_lt (by omega), Nat.shiftLeft_eq]
    omega
  have four : a.toNat + 2 ^ 8 * b.toNat + 2 ^ 16 * c.toNat ||| d.toNat <<< 24 =
      a.toNat + 2 ^ 8 * b.toNat + 2 ^ 16 * c.toNat + 2 ^ 24 * d.toNat := by
    rw [Nat.or_comm, ← Nat.shiftLeft_add_eq_or_of_lt (by omega), Nat.shiftLeft_eq]
    omega
  have shifted {n : Nat} (k : Nat) (lt : 2 ^ k * n < 2 ^ 32) : n <<< k % 2 ^ 32 = n <<< k := by
    rw [Nat.shiftLeft_eq, Nat.mul_comm]
    exact Nat.mod_eq_of_lt lt
  have words : (toWord a b c d).toNat = a.toNat ||| b.toNat <<< 8 % 2 ^ 32 |||
      c.toNat <<< 16 % 2 ^ 32 ||| d.toNat <<< 24 % 2 ^ 32 := by
    simp only [toWord, UInt32.toNat_or, UInt32.toNat_shiftLeft, UInt8.toNat_toUInt32]
    rfl
  rw [words, shifted 8 (by omega), shifted 16 (by omega), shifted 24 (by omega), two, three, four]
  simp only [number]
  omega

theorem toWords_flatMap_ofWord (ws : List UInt32) : toWords (ws.flatMap ofWord) = ws := by
  induction ws with
  | nil => rfl
  | cons w rest ih =>
    have first : toWord w.toUInt8 (w >>> 8).toUInt8 (w >>> 16).toUInt8 (w >>> 24).toUInt8 = w :=
      UInt32.toNat_inj.1 ((toNat_toWord _ _ _ _).trans (number_ofWord w))
    show toWord _ _ _ _ :: toWords (rest.flatMap ofWord) = w :: rest
    rw [first, ih]

theorem length_flatMap_ofWord (ws : List UInt32) : (ws.flatMap ofWord).length = 4 * ws.length := by
  induction ws with
  | nil => rfl
  | cons w rest ih =>
    rw [List.flatMap_cons, List.length_append, ih, length_ofWord, List.length_cons]
    omega

theorem writes_flatMap_ofWord (ws : List UInt32) : Writes (ws.flatMap ofWord) ws := by
  refine ⟨length_flatMap_ofWord ws, fun i lt => ?_⟩
  induction ws generalizing i with
  | nil => cases lt
  | cons w rest ih =>
    rw [List.flatMap_cons]
    cases i with
    | zero => exact number_ofWord w
    | succ i =>
      have behind : (ofWord w ++ rest.flatMap ofWord).drop (4 * (i + 1)) =
          (rest.flatMap ofWord).drop (4 * i) := by
        rw [Nat.mul_succ, Nat.add_comm, ← List.drop_drop]
        rfl
      rw [slice, behind]
      exact ih i (Nat.lt_of_succ_lt_succ lt)

end Bytes

namespace Value

theorem writes_bytes (v : Value) : Bytes.Writes v.bytes v.words :=
  Bytes.writes_flatMap_ofWord v.words

@[simp] theorem length_bytes (v : Value) : v.bytes.length = 4 * v.type.wordCount := by
  rw [bytes, Bytes.length_flatMap_ofWord, length_words]

/-- The words of a value say what it is. -/
theorem ofWords?_words (v : Value) : ofWords? v.type v.words = some v := by
  cases v with
  | bool b => cases b <;> rfl
  | _ => rfl

theorem ofWords?_toWords_bytes (v : Value) : ofWords? v.type (Bytes.toWords v.bytes) = some v := by
  rw [bytes, Bytes.toWords_flatMap_ofWord, ofWords?_words]

end Value

end SurfaceShading
