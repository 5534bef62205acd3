/-
  Places in a text as byte offsets. An index has to be inside the text, the ends of a slice in
  order, and the ends of a slice of characters between two of them; a step that breaks such a
  rule is a `Fault`. For a text in three parts the middle one is the slice between their
  lengths (`byteSlice_middle`, `slice_middle`), and a search for a character of ASCII finds the
  same place in the bytes as in the characters (`findIdx?_units`).
-/
import SurfaceShading.Text.Blank
import SurfaceShading.Text.Utf8
import Mathlib.Data.List.Infix

namespace SurfaceShading.Text

/-! ## Units and offsets -/

/-- A byte, shown as the character of its number. -/
def byteChar (b : UInt8) : Char := Char.ofNat b.toNat

/-- The bytes of a text, shown as characters. -/
def units (cs : List Char) : List Char := (utf8 (String.ofList cs)).map byteChar

/-- The byte offset of a character. -/
def offset (cs : List Char) (n : Nat) : Nat := utf8Length (cs.take n)

theorem utf8_ofList (cs : List Char) :
    utf8 (String.ofList cs) = cs.flatMap String.utf8EncodeChar :=
  List.toList_data_toByteArray

theorem units_cons (c : Char) (cs : List Char) :
    units (c :: cs) = (String.utf8EncodeChar c).map byteChar ++ units cs := by
  rw [units, units, utf8_ofList, utf8_ofList, List.flatMap_cons, List.map_append]

theorem units_append (cs ds : List Char) : units (cs ++ ds) = units cs ++ units ds := by
  rw [units, units, units, utf8_ofList, utf8_ofList, utf8_ofList, List.flatMap_append,
    List.map_append]

theorem utf8Length_cons (c : Char) (cs : List Char) :
    utf8Length (c :: cs) = c.utf8Size + utf8Length cs := rfl

theorem utf8Length_append (cs ds : List Char) :
    utf8Length (cs ++ ds) = utf8Length cs + utf8Length ds := by
  induction cs with
  | nil => exact (Nat.zero_add _).symm
  | cons c cs ih => rw [List.cons_append, utf8Length_cons, utf8Length_cons, ih, Nat.add_assoc]

@[simp] theorem length_units (cs : List Char) : (units cs).length = utf8Length cs := by
  induction cs with
  | nil => rfl
  | cons c cs ih =>
    rw [units_cons, List.length_append, ih, List.length_map, utf8Length_cons,
      String.length_utf8EncodeChar]

/-! ## Bytes of ASCII -/

/-- A property of characters of ASCII alone. -/
def AsciiOnly (p : Char → Bool) : Prop := ∀ c, p c = true → c.toNat < 128

theorem unit_high {n : Nat} (high : 128 ≤ n) (byte : n < 256) :
    128 ≤ (byteChar (UInt8.ofNat n)).toNat := by
  have valid : n.isValidChar := .inl (by omega)
  rw [byteChar, UInt8.toNat_ofNat_of_lt' byte, Char.ofNat, dif_pos valid]
  exact high

/-- The unit of a character of ASCII is the character. -/
theorem units_ascii {c : Char} (ascii : c.toNat < 128) :
    (String.utf8EncodeChar c).map byteChar = [c] := by
  have code : c.val.toNat ≤ 127 := Nat.le_of_lt_succ ascii
  rw [String.utf8EncodeChar, if_pos code, List.map_singleton, byteChar,
    UInt8.toNat_ofNat_of_lt' (Nat.lt_of_le_of_lt code (by decide))]
  exact congrArg (· :: []) (Char.ofNat_toNat c)

/-- No unit of another character is of ASCII. -/
theorem units_high {c : Char} (high : 128 ≤ c.toNat) :
    ∀ u ∈ (String.utf8EncodeChar c).map byteChar, 128 ≤ u.toNat := by
  have code : ¬ c.val.toNat ≤ 127 := Nat.not_le.2 high
  have continuation (n : Nat) : 128 ≤ (byteChar (UInt8.ofNat (n % 64 + 128))).toNat :=
    unit_high (by omega) (by omega)
  simp only [String.utf8EncodeChar, if_neg code]
  split
  · simp only [List.map_cons, List.map_nil, List.forall_mem_cons]
    exact ⟨unit_high (by omega) (by omega), continuation _, List.forall_mem_nil _⟩
  · split
    · simp only [List.map_cons, List.map_nil, List.forall_mem_cons]
      exact ⟨unit_high (by omega) (by omega), continuation _, continuation _,
        List.forall_mem_nil _⟩
    · simp only [List.map_cons, List.map_nil, List.forall_mem_cons]
      exact ⟨unit_high (by omega) (by omega), continuation _, continuation _, continuation _,
        List.forall_mem_nil _⟩

/-- The first unit of a character. -/
theorem units_head (c : Char) :
    ∃ rest, (String.utf8EncodeChar c).map byteChar = leadByteChar c :: rest := by
  have first : utf8 (String.singleton c) = String.utf8EncodeChar c := by
    rw [← List.append_nil (String.utf8EncodeChar c)]
    exact utf8_ofList [c]
  cases bytes : String.utf8EncodeChar c with
  | nil =>
    have length := String.length_utf8EncodeChar c
    rw [bytes] at length
    exact absurd length.symm (Nat.pos_iff_ne_zero.1 c.utf8Size_pos)
  | cons b rest =>
    refine ⟨rest.map byteChar, ?_⟩
    rw [leadByteChar, first, bytes]
    rfl

theorem leadByteChar_ascii {c : Char} (ascii : c.toNat < 128) : leadByteChar c = c := by
  obtain ⟨rest, is⟩ := units_head c
  rw [units_ascii ascii] at is
  exact (List.cons.inj is).1.symm

theorem leadByteChar_high {c : Char} (high : 128 ≤ c.toNat) : 128 ≤ (leadByteChar c).toNat := by
  obtain ⟨rest, is⟩ := units_head c
  exact units_high high _ (is ▸ List.mem_cons_self)

namespace AsciiOnly

variable {p : Char → Bool}

theorem high (ascii : AsciiOnly p) {c : Char} (high : 128 ≤ c.toNat) : p c = false :=
  Bool.eq_false_iff.2 fun is => absurd (ascii c is) (Nat.not_lt.2 high)

/-- A character of ASCII is told by its first byte. -/
theorem lead (ascii : AsciiOnly p) (c : Char) : p (leadByteChar c) = p c := by
  rcases Nat.lt_or_ge c.toNat 128 with low | high
  · rw [leadByteChar_ascii low]
  · rw [ascii.high (leadByteChar_high high), ascii.high high]

theorem units_of_char (ascii : AsciiOnly p) {c : Char} (other : p c = false) :
    ∀ u ∈ (String.utf8EncodeChar c).map byteChar, p u = false := by
  rcases Nat.lt_or_ge c.toNat 128 with low | high
  · rw [units_ascii low]
    exact List.forall_mem_singleton.2 other
  · exact fun u mem => ascii.high (units_high high u mem)

theorem units (ascii : AsciiOnly p) {cs : List Char} (none : ∀ c ∈ cs, p c = false) :
    ∀ u ∈ Text.units cs, p u = false := by
  induction cs with
  | nil => exact List.forall_mem_nil _
  | cons c cs ih =>
    obtain ⟨here, later⟩ := List.forall_mem_cons.1 none
    rw [units_cons]
    exact List.forall_mem_append.2 ⟨ascii.units_of_char here, ih later⟩

/-- What is not among the characters is not among the bytes. -/
theorem findIdx?_none (ascii : AsciiOnly p) {cs : List Char} (none : ∀ c ∈ cs, p c = false) :
    (Text.units cs).findIdx? p = .none :=
  List.findIdx?_eq_none_iff.2 (ascii.units none)

/-- What is among the characters is found in the bytes at its offset. -/
theorem findIdx?_some (ascii : AsciiOnly p) {before : List Char}
    (none : ∀ c ∈ before, p c = false) {c : Char} (is : p c = true) (after : List Char) :
    (Text.units (before ++ c :: after)).findIdx? p = some (utf8Length before) := by
  rw [units_append, units_cons, units_ascii (ascii c is), List.findIdx?_append,
    ascii.findIdx?_none none, List.singleton_append, List.findIdx?_cons, is, length_units, if_pos rfl,
    Option.none_or, Option.map_some, Nat.zero_add]

end AsciiOnly

/-! ## Checked access -/

/-- A rule on offsets that a step breaks: an index or a slice is out of range, the end of a slice
is inside a character, a depth falls below zero, or a loop does not get on. -/
inductive Fault where
  | outOfRange
  | insideCharacter
  | belowZero
  | stalled
  deriving Repr, DecidableEq

/-- Why reading stops early: by a fault, or by something that is wrong with what is read. -/
inductive Stop (ε : Type) where
  | fault (fault : Fault)
  | failure (failure : ε)
  deriving Repr, DecidableEq

def Stop.map {ε δ : Type} (f : ε → δ) : Stop ε → Stop δ
  | fault x => fault x
  | failure e => failure (f e)

section

variable {ε : Type}

/-- The byte at an offset. -/
def byteAt (text : List Char) (i : Nat) : Except (Stop ε) Char :=
  match (units text)[i]? with
  | some u => .ok u
  | none => .error (.fault .outOfRange)

/-- The bytes between two offsets. -/
def byteSlice (text : List Char) (start stop : Nat) : Except (Stop ε) (List Char) :=
  if start ≤ stop ∧ stop ≤ utf8Length text then .ok (((units text).take stop).drop start)
  else .error (.fault .outOfRange)

/-- The number of characters before an offset, if it is not inside one. -/
def charIndex? : List Char → Nat → Option Nat
  | _, 0 => some 0
  | [], _ + 1 => none
  | c :: cs, n + 1 =>
    if c.utf8Size ≤ n + 1 then (charIndex? cs (n + 1 - c.utf8Size)).map (· + 1) else none

/-- The characters between two offsets. -/
def slice (text : List Char) (start stop : Nat) : Except (Stop ε) (List Char) :=
  if start ≤ stop ∧ stop ≤ utf8Length text then
    match charIndex? text start, charIndex? text stop with
    | some i, some j => .ok ((text.take j).drop i)
    | _, _ => .error (.fault .insideCharacter)
  else .error (.fault .outOfRange)

/-- The offset of the first occurrence of a text. -/
def find (needle text : List Char) : Option Nat := (indexOf? needle text).map (offset text)

end

/-! ## Parts of a text -/

section

variable {ε : Type} (before cs after : List Char)

theorem byteSlice_middle : (byteSlice (before ++ (cs ++ after)) (utf8Length before)
    (utf8Length before + utf8Length cs) : Except (Stop ε) _) = .ok (units cs) := by
  have reach : utf8Length before + utf8Length cs ≤ utf8Length (before ++ (cs ++ after)) := by
    rw [utf8Length_append, utf8Length_append]
    omega
  rw [byteSlice, if_pos ⟨Nat.le_add_right _ _, reach⟩, ← List.append_assoc, units_append,
    units_append]
  rw [List.take_left' (by simp), List.drop_left' (length_units before)]

theorem charIndex?_append : charIndex? (before ++ after) (utf8Length before) = some before.length := by
  induction before with
  | nil =>
    cases after <;> rfl
  | cons c before ih =>
    obtain ⟨n, is⟩ := Nat.exists_eq_add_of_lt c.utf8Size_pos
    have length : utf8Length (c :: before) = (n + utf8Length before) + 1 := by
      rw [utf8Length_cons]
      omega
    rw [length, List.cons_append, charIndex?, if_pos (by omega),
      show n + utf8Length before + 1 - c.utf8Size = utf8Length before by omega, ih]
    rfl

theorem slice_middle : (slice (before ++ (cs ++ after)) (utf8Length before)
    (utf8Length before + utf8Length cs) : Except (Stop ε) _) = .ok cs := by
  have reach : utf8Length before + utf8Length cs ≤ utf8Length (before ++ (cs ++ after)) := by
    rw [utf8Length_append, utf8Length_append]
    omega
  have stop : charIndex? (before ++ (cs ++ after)) (utf8Length before + utf8Length cs) =
      some (before ++ cs).length := by
    rw [← List.append_assoc, ← utf8Length_append, charIndex?_append]
  rw [slice, if_pos ⟨Nat.le_add_right _ _, reach⟩, charIndex?_append, stop]
  dsimp only
  rw [← List.append_assoc, List.take_left' rfl, List.drop_left' rfl]

end

theorem offset_left (before rest : List Char) :
    offset (before ++ rest) before.length = utf8Length before := by
  rw [offset, List.take_left' rfl]

theorem offset_add (cs : List Char) (n m : Nat) :
    offset cs (n + m) = offset cs n + offset (cs.drop n) m := by
  rw [offset, List.take_add, utf8Length_append, offset, offset]

section

variable {ε : Type} {text : List Char} {i j : Nat}

/-- A text is cut in three by two places in it. -/
theorem take_append_between (order : i ≤ j) :
    text.take i ++ (text.take j).drop i = text.take j := by
  have first : (text.take j).take i = text.take i := by
    rw [List.take_take, Nat.min_eq_left order]
  rw [← first, List.take_append_drop]

theorem offset_between (order : i ≤ j) :
    offset text j = offset text i + utf8Length ((text.take j).drop i) := by
  rw [offset, offset, ← utf8Length_append, take_append_between order]

theorem slice_offsets (order : i ≤ j) :
    (slice text (offset text i) (offset text j) : Except (Stop ε) _) =
      .ok ((text.take j).drop i) := by
  have middle := @slice_middle ε (text.take i) ((text.take j).drop i) (text.drop j)
  rwa [← List.append_assoc, take_append_between order, List.take_append_drop, ← offset,
    ← offset_between order] at middle

theorem byteSlice_offsets (order : i ≤ j) :
    (byteSlice text (offset text i) (offset text j) : Except (Stop ε) _) =
      .ok (units ((text.take j).drop i)) := by
  have middle := @byteSlice_middle ε (text.take i) ((text.take j).drop i) (text.drop j)
  rwa [← List.append_assoc, take_append_between order, List.take_append_drop, ← offset,
    ← offset_between order] at middle

end

section

variable {ε : Type} (before cs after : List Char)

theorem getElem?_units : (units (before ++ cs))[utf8Length before]? = cs.head?.map leadByteChar := by
  rw [units_append, List.getElem?_append_right (by simp), length_units, Nat.sub_self]
  cases cs with
  | nil => rfl
  | cons c cs =>
    obtain ⟨rest, is⟩ := units_head c
    rw [units_cons, is]
    rfl

theorem byteAt_lead (c : Char) :
    (byteAt (before ++ c :: after) (utf8Length before) : Except (Stop ε) _) =
      .ok (leadByteChar c) := by
  rw [byteAt, getElem?_units]
  rfl

/-- Inside a character that is not of ASCII, no byte is. -/
theorem byteAt_inside {c : Char} (high : 128 ≤ c.toNat) {i : Nat} (inside : i < c.utf8Size) :
    ∃ u, (byteAt (before ++ c :: after) (utf8Length before + i) : Except (Stop ε) _) = .ok u ∧
      128 ≤ u.toNat := by
  have length : i < ((String.utf8EncodeChar c).map byteChar).length := by
    rwa [List.length_map, String.length_utf8EncodeChar]
  refine ⟨((String.utf8EncodeChar c).map byteChar)[i], ?_,
    units_high high _ (List.getElem_mem length)⟩
  rw [byteAt, units_append, List.getElem?_append_right (by simp), length_units,
    Nat.add_sub_cancel_left, units_cons, List.getElem?_append_left length,
    List.getElem?_eq_getElem length]

end

end SurfaceShading.Text
