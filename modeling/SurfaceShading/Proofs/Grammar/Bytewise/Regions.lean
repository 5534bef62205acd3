/-
  What the reader by byte offsets finds at the start of a region is what the reader of characters
  finds there, at the offsets of its places: names, strings and blocks. What is left is a region
  with the same end, and the inside of a block is a region that ends with the block.
-/
import SurfaceShading.Proofs.Grammar.Bytewise.Trivia

namespace SurfaceShading.Grammar.Bytewise

open Text

/-! ## Regions -/

/-- The region of a text from a place to the offset of its end. What follows it does not go on
with a mark of a comment. -/
def Region (text : List Char) (stop : Nat) (s : Span) : Prop :=
  ∃ before after, text = before ++ (s.chars ++ after) ∧ s.start = before.length ∧
    stop = utf8Length before + utf8Length s.chars ∧ ∀ c ∈ after.head?, c ≠ '/' ∧ c ≠ '*'

/-- What a step finds, with offsets for places. -/
def told (text : List Char) {α β : Type} (f : α → β) : Except Failure α → Scan β
  | .ok a => .ok (f a)
  | .error e => fail (offset text e.position) e.cause

section

variable {text : List Char} {stop : Nat} {s : Span}

theorem Region.drop (region : Region text stop s) {n : Nat} (le : n ≤ s.size) :
    Region text stop (s.drop n) ∧
      offset text (s.drop n).start = offset text s.start + offset s.chars n := by
  obtain ⟨before, after, rfl, start, rfl, closed⟩ := region
  have split : before ++ (s.chars ++ after) =
      before ++ s.chars.take n ++ ((s.drop n).chars ++ after) := by
    rw [Span.drop, List.append_assoc, ← List.append_assoc (s.chars.take n), List.take_append_drop]
  have length : (s.drop n).start = (before ++ s.chars.take n).length := by
    rw [List.length_append, List.length_take_of_le le, ← start, Span.drop]
  have parts : utf8Length s.chars = utf8Length (s.chars.take n) + utf8Length (s.drop n).chars := by
    rw [← utf8Length_append, chars_drop, List.take_append_drop]
  refine ⟨⟨before ++ s.chars.take n, after, split, length, ?_, closed⟩, ?_⟩
  · rw [utf8Length_append, Nat.add_assoc, ← parts]
  · rw [length, start, offset_left, split, offset_left, utf8Length_append, offset]

namespace Region

theorem stop_eq (region : Region text stop s) : stop = offset text (s.start + s.size) := by
  obtain ⟨before, after, rfl, start, rfl, -⟩ := region
  rw [start, Span.size, ← List.length_append, ← List.append_assoc, offset_left, utf8Length_append]

theorem between (region : Region text stop s) (n : Nat) {m : Nat} (le : m ≤ s.size) :
    (text.take (s.start + m)).drop (s.start + n) = (s.chars.take m).drop n := by
  obtain ⟨before, after, rfl, start, -, -⟩ := region
  rw [start, List.take_length_add_append, List.drop_length_add_append,
    List.take_append_of_le_length le]

theorem slice {ε : Type} (region : Region text stop s) {n m : Nat} (order : n ≤ m)
    (le : m ≤ s.size) :
    (Text.slice text (offset text (s.start + n)) (offset text (s.start + m)) : Except (Stop ε) _) =
      .ok ((s.chars.take m).drop n) := by
  rw [slice_offsets (Nat.add_le_add_left order _), region.between n le]

theorem byteSlice {ε : Type} (region : Region text stop s) {n : Nat} (le : n ≤ s.size) :
    (Text.byteSlice text (offset text (s.start + n)) stop : Except (Stop ε) _) =
      .ok (units (s.chars.drop n)) := by
  rw [region.stop_eq, byteSlice_offsets (Nat.add_le_add_left le _),
    region.between n (Nat.le_refl _), Span.size, List.take_length]

theorem offset_add (region : Region text stop s) {n : Nat} (le : n ≤ s.size) :
    offset text (s.start + n) = offset text s.start + offset s.chars n :=
  (region.drop le).2

theorem offset_prefix (region : Region text stop s) {lead : List Char} (is : lead <+: s.chars) :
    offset text (s.start + lead.length) = offset text s.start + utf8Length lead := by
  obtain ⟨rest, split⟩ := is
  rw [region.offset_add (by rw [Span.size, ← split]; simp), ← split, offset_left]

theorem byteAt {ε : Type} (region : Region text stop s) {n : Nat} {c : Char} {rest : List Char}
    (here : s.chars.drop n = c :: rest) :
    (Text.byteAt text (offset text (s.start + n)) : Except (Stop ε) _) =
      .ok (leadByteChar c) := by
  have le : n ≤ s.size := by
    have nonempty := congrArg List.length here
    rw [List.length_drop, List.length_cons] at nonempty
    rw [Span.size]
    omega
  obtain ⟨⟨before, after, split, start, -, -⟩, -⟩ := region.drop le
  rw [chars_drop, here] at split
  rw [show s.start + n = before.length from start, split, offset_left, List.cons_append,
    byteAt_lead]

end Region

theorem triviaLength_le (mode : Mode) (cs : List Char) : triviaLength mode cs ≤ cs.length := by
  fun_induction triviaLength mode cs <;> simp_all

theorem trivia_eq (region : Region text stop s) :
    trivia text stop (offset text s.start) = .ok (offset text s.skipTrivia.start) ∧
      Region text stop s.skipTrivia := by
  obtain ⟨region', place⟩ := region.drop (triviaLength_le .code s.chars)
  refine ⟨?_, region'⟩
  rw [Span.skipTrivia, place]
  obtain ⟨before, after, rfl, start, rfl, closed⟩ := region
  rw [start, offset_left, trivia, skipTrivia_eq closed (by omega)]

/-- The byte at hand is the first of the character at hand. -/
theorem peek_eq (region : Region text stop s) :
    peek text stop (offset text s.start) = .ok (s.chars.head?.map leadByteChar) := by
  obtain ⟨before, after, rfl, start, rfl, -⟩ := region
  rw [start, offset_left, peek]
  cases s.chars with
  | nil => exact if_neg (Nat.lt_irrefl _)
  | cons c cs =>
    rw [if_pos (Nat.lt_add_of_pos_right (utf8Length_pos (List.cons_ne_nil c cs))),
      List.cons_append, byteAt_lead]
    rfl

/-! ## Names -/

theorem asciiOnly_nameChar : AsciiOnly isNameChar := by
  intro c is
  have range := toNat_of_isNameChar is
  omega

theorem skipName_eq {ε : Type} {before cs after : List Char} {rounds : Nat}
    (enough : utf8Length cs < rounds) :
    (skipName (before ++ (cs ++ after)) (utf8Length before + utf8Length cs) rounds
      (utf8Length before) : Except (Stop ε) Nat) =
        .ok (utf8Length before + utf8Length (cs.takeWhile isNameChar)) := by
  induction rounds generalizing before cs with
  | zero => exact absurd enough (Nat.not_lt_zero _)
  | succ rounds ih =>
    rw [skipName]
    cases cs with
    | nil => exact if_neg (Nat.lt_irrefl _)
    | cons c cs =>
      rw [if_pos (Nat.lt_add_of_pos_right (utf8Length_pos (List.cons_ne_nil c cs))),
        List.cons_append, byteAt_lead]
      simp only [bind, Except.bind]
      rw [asciiOnly_nameChar.lead]
      by_cases is : isNameChar c = true
      · have one := utf8Length_ascii (asciiOnly_nameChar c is)
        have length : utf8Length (c :: cs) = 1 + utf8Length cs := by
          rw [← one, ← utf8Length_append]
          rfl
        have later := @ih (before ++ [c]) cs (by omega)
        rw [utf8Length_append, one, Nat.add_assoc, ← length, List.append_assoc] at later
        rw [if_pos is, List.takeWhile_cons_of_pos is]
        refine later.trans ?_
        rw [Nat.add_assoc, ← one, ← utf8Length_append]
        rfl
      · rw [if_neg is, List.takeWhile_cons_of_neg is]
        rfl

theorem name_eq {ε : Type} (region : Region text stop s) :
    (name text stop (offset text s.start) : Except (Stop ε) _) =
      .ok (s.chars.takeWhile isNameChar,
        offset text (s.start + (s.chars.takeWhile isNameChar).length)) := by
  have lead := List.takeWhile_prefix (l := s.chars) isNameChar
  have cut := @Region.slice _ _ _ ε region 0 _ (Nat.zero_le _) lead.length_le
  have skipped : (skipName text stop (stop - offset text s.start + 1) (offset text s.start) :
      Except (Stop ε) Nat) =
        .ok (offset text s.start + utf8Length (s.chars.takeWhile isNameChar)) := by
    obtain ⟨before, after, rfl, start, rfl, -⟩ := region
    rw [start, offset_left, skipName_eq (by omega)]
  rw [Nat.add_zero, List.drop_zero, ← List.prefix_iff_eq_take.1 lead] at cut
  rw [name, skipped, ← region.offset_prefix lead]
  simp only [bind, Except.bind]
  rw [cut]

/-! ## Strings -/

theorem asciiOnly_endsString : AsciiOnly endsString := by
  intro c is
  simp only [endsString, Bool.or_eq_true, decide_eq_true_eq] at is
  rcases is with rfl | rfl <;> decide

/-- A text up to the first character of some kind, and the rest. -/
theorem exists_cut (p : Char → Bool) (cs : List Char) :
    ∃ lead tail, cs = lead ++ tail ∧ (∀ c ∈ lead, p c = false) ∧ (∀ c ∈ tail.head?, p c = true) ∧
      cs.takeWhile (!p ·) = lead := by
  refine ⟨cs.takeWhile (!p ·), cs.dropWhile (!p ·), List.takeWhile_append_dropWhile.symm,
    fun c mem => ?_, fun c mem => ?_, rfl⟩
  · simpa using List.mem_takeWhile_imp mem
  · have stops := List.head?_dropWhile_not (fun c => !p c) cs
    rw [Option.mem_def.1 mem] at stops
    simpa using stops

/-- The outcomes of reading a string. -/
theorem quoted_cases (s : Span) :
    (s.skipTrivia.chars.head? ≠ some '"' ∧
      s.quoted = .error ⟨s.skipTrivia.start, .expectedString⟩) ∨
    (∃ content rest, s.skipTrivia.chars = '"' :: (content ++ rest) ∧
      (∀ c ∈ content, endsString c = false) ∧ (rest = [] ∨ ∃ rest', rest = '\n' :: rest') ∧
      s.quoted = .error ⟨s.skipTrivia.start, .unterminatedString⟩) ∨
    ∃ content rest after, s.skipTrivia.chars = '"' :: (content ++ '"' :: rest) ∧
      (∀ c ∈ content, endsString c = false) ∧ s.quoted = .ok (content, after) ∧
      after.val = s.skipTrivia.drop (content.length + 2) := by
  have pred : (fun c => decide (c ≠ '"') && decide (c ≠ '\n')) = fun c => !endsString c := by
    funext c
    simp [endsString]
  unfold Span.quoted
  dsimp only
  split
  · next cs some =>
    obtain ⟨content, rest, split, inside, stops, run⟩ := exists_cut endsString cs
    have left : cs.drop content.length = rest := by
      rw [split]
      exact List.drop_left' rfl
    simp only [pred, run, left]
    rw [split] at some
    split
    · next rest =>
      exact .inr (.inr ⟨content, rest, _, some, inside, rfl, rfl⟩)
    · next other =>
      refine .inr (.inl ⟨content, rest, some, inside, ?_, rfl⟩)
      cases rest with
      | nil => exact .inl rfl
      | cons c rest =>
        have mark := stops c rfl
        simp only [endsString, Bool.or_eq_true, decide_eq_true_eq] at mark
        rcases mark with rfl | rfl
        · exact absurd rfl (other rest)
        · exact .inr ⟨rest, rfl⟩
  · next other =>
    refine .inl ⟨fun head => ?_, rfl⟩
    obtain ⟨cs, is⟩ := List.head?_eq_some_iff.1 head
    exact other cs is

theorem quoted_eq (region : Region text stop s) :
    quoted text stop (offset text s.start) =
      told text (fun x => (x.1, offset text x.2.val.start)) s.quoted := by
  obtain ⟨skipped, region'⟩ := trivia_eq region
  rw [quoted, skipped]
  simp only [bind, Except.bind]
  rw [peek_eq region']
  dsimp only
  -- The string after its mark, if there is one, up to what ends it.
  have inner {content rest : List Char} (chars : s.skipTrivia.chars = '"' :: (content ++ rest)) :
      (byteSlice text (offset text s.skipTrivia.start + 1) stop : Scan _) =
        .ok (units (content ++ rest)) ∧
      offset text (s.skipTrivia.start + 1) = offset text s.skipTrivia.start + 1 ∧
      offset text (s.skipTrivia.start + (content.length + 1)) =
        offset text s.skipTrivia.start + 1 + utf8Length content := by
    have step := @Region.offset_prefix _ _ _ region' ['"'] ⟨content ++ rest, chars.symm⟩
    have steps := @Region.offset_prefix _ _ _ region' ('"' :: content) ⟨rest, chars.symm⟩
    have left := @Region.byteSlice _ _ _ Failure region' 1 (by
      rw [Span.size, chars]
      exact Nat.succ_le_succ (Nat.zero_le _))
    rw [utf8Length_ascii (by decide), List.length_singleton] at step
    rw [step, chars, List.drop_succ_cons, List.drop_zero] at left
    exact ⟨left, step, steps.trans (Nat.add_assoc _ 1 _).symm⟩
  rcases quoted_cases s with ⟨unlike, failed⟩ | ⟨content, rest, chars, inside, cut, failed⟩ |
    ⟨content, rest, after, chars, inside, read, place⟩
  · rw [if_neg (mt (head?_lead_iff (by decide) _).1 unlike), failed]
    rfl
  · obtain ⟨left, -, here⟩ := inner chars
    rw [chars, List.head?_cons, Option.map_some, leadByteChar_ascii (by decide), if_pos rfl, left,
      failed]
    dsimp only
    rcases cut with rfl | ⟨rest, rfl⟩
    · rw [List.append_nil, asciiOnly_endsString.findIdx?_none inside]
      rfl
    · have feed := @Region.byteAt _ _ _ Failure region' (content.length + 1) '\n' rest (by
        rw [chars, List.drop_succ_cons, List.drop_left' rfl])
      rw [asciiOnly_endsString.findIdx?_some inside rfl]
      dsimp only
      rw [← here, feed, leadByteChar_ascii (by decide)]
      exact if_neg (by decide)
  · obtain ⟨left, start, here⟩ := inner chars
    have mark := @Region.byteAt _ _ _ Failure region' (content.length + 1) '"' rest (by
      rw [chars, List.drop_succ_cons, List.drop_left' rfl])
    have size : content.length + 1 ≤ s.skipTrivia.size := by
      rw [Span.size, chars]
      simp
    have cut := @Region.slice _ _ _ Failure region' 1 (content.length + 1) (by omega) size
    rw [chars, List.take_succ_cons, List.take_left' rfl, List.drop_succ_cons, List.drop_zero, start,
      here] at cut
    rw [chars, List.head?_cons, Option.map_some, leadByteChar_ascii (by decide), if_pos rfl, left,
      read]
    dsimp only
    rw [asciiOnly_endsString.findIdx?_some inside rfl]
    dsimp only
    rw [← here, mark, leadByteChar_ascii (by decide)]
    dsimp only
    have whole := @Region.offset_prefix _ _ _ region' ('"' :: content ++ ['"']) ⟨rest, by rw [chars]; simp⟩
    have length : utf8Length ('"' :: content ++ ['"']) = 1 + utf8Length content + 1 := by
      rw [utf8Length_append, utf8Length_ascii (by decide)]
      rfl
    rw [length, ← Nat.add_assoc, ← Nat.add_assoc] at whole
    rw [if_pos rfl, here, cut, ← whole]
    dsimp only [told]
    rw [place]
    simp [Span.drop]

/-- What follows a string is a region with the same end. -/
theorem quoted_region (region : Region text stop s) {content : List Char} {after : Shorter s.size}
    (read : s.quoted = .ok (content, after)) : Region text stop after.val := by
  obtain ⟨-, region'⟩ := trivia_eq region
  rcases quoted_cases s with ⟨-, failed⟩ | ⟨_, _, -, -, -, failed⟩ |
    ⟨content', rest, after', chars, -, read', place⟩
  · rw [failed] at read
    cases read
  · rw [failed] at read
    cases read
  · rw [read'] at read
    cases read
    rw [place]
    refine (region'.drop ?_).1
    rw [Span.size, chars]
    simp

/-! ## Blocks -/

/-- Units that are no mark are passed over. -/
theorem matching_others {ε : Type} {opener closer : Char} {us : List Char}
    (others : ∀ u ∈ us, u ≠ opener ∧ u ≠ closer) (depth : Nat) (rest : List Char) :
    (matching opener closer depth (us ++ rest) : Except (Stop ε) _) =
      (matching opener closer depth rest).map (·.map (· + us.length)) := by
  induction us with
  | nil =>
    rw [List.nil_append]
    cases matching opener closer depth rest with
    | error e => rfl
    | ok found => cases found <;> rfl
  | cons u us ih =>
    obtain ⟨⟨noOpener, noCloser⟩, later⟩ := List.forall_mem_cons.1 others
    rw [List.cons_append, matching.eq_def]
    dsimp only
    rw [if_neg noOpener, if_neg noCloser, ih later]
    cases matching opener closer depth rest with
    | error e => rfl
    | ok found => cases found <;> rfl

/-- A group is closed in the bytes where it is closed among the characters. -/
theorem matching_eq {ε : Type} {opener closer : Char} (ascii : opener.toNat < 128)
    (ascii' : closer.toNat < 128) (depth : Nat) (cs : List Char) :
    (matching opener closer (depth + 1) (units cs) : Except (Stop ε) _) =
      .ok ((closing opener closer depth cs).map (offset cs)) := by
  have further (c : Char) (cs : List Char) (found : Option Nat) :
      (found.map (offset cs)).map (· + c.utf8Size) = (found.map (· + 1)).map (offset (c :: cs)) := by
    cases found with
    | none => rfl
    | some n =>
      show some (_ + _) = some (offset (c :: cs) (n + 1))
      rw [offset, offset, List.take_succ_cons, utf8Length_cons, Nat.add_comm]
  induction cs generalizing depth with
  | nil => rfl
  | cons c cs ih =>
    rw [units_cons, closing.eq_def]
    dsimp only
    by_cases opens : c = opener
    · have one := further opener cs
      rw [show opener.utf8Size = 1 from utf8Length_ascii ascii] at one
      rw [opens, units_ascii ascii, List.singleton_append, matching.eq_def]
      dsimp only
      rw [if_pos rfl, if_pos rfl, ih]
      exact congrArg Except.ok (one _)
    rw [if_neg opens]
    by_cases closes : c = closer
    · have one := further closer cs
      rw [show closer.utf8Size = 1 from utf8Length_ascii ascii'] at one
      rw [closes] at opens
      rw [closes, units_ascii ascii', List.singleton_append, matching.eq_def]
      dsimp only
      rw [if_neg opens, if_pos rfl, if_pos rfl]
      cases depth with
      | zero => rfl
      | succ depth =>
        show (matching opener closer (depth + 1) (units cs)).map _ = _
        rw [ih]
        exact congrArg Except.ok (one _)
    · have others : ∀ u ∈ (String.utf8EncodeChar c).map byteChar, u ≠ opener ∧ u ≠ closer := by
        intro u mem
        exact ⟨of_decide_eq_false ((asciiOnly_eq ascii).units_of_char (decide_eq_false opens) u mem),
          of_decide_eq_false ((asciiOnly_eq ascii').units_of_char (decide_eq_false closes) u mem)⟩
      rw [if_neg closes, matching_others others, ih, List.length_map, String.length_utf8EncodeChar]
      exact congrArg Except.ok (further c cs _)

/-- A group that opens at hand is closed in the bytes where it is closed among the characters. -/
theorem matching_group {ε : Type} {opener closer : Char} (ascii : opener.toNat < 128)
    (ascii' : closer.toNat < 128) (inside : List Char) :
    (matching opener closer 0 (units (opener :: inside)) : Except (Stop ε) _) =
      .ok (((closing opener closer 0 inside).map (offset inside)).map (· + 1)) := by
  rw [units_cons, units_ascii ascii, List.singleton_append, matching.eq_def]
  dsimp only
  rw [if_pos rfl, matching_eq ascii ascii']
  rfl

/-- A group is closed by its closing mark. -/
theorem closing_split {opener closer : Char} {depth n : Nat} {cs : List Char}
    (found : closing opener closer depth cs = some n) :
    ∃ rest, cs = cs.take n ++ closer :: rest := by
  fun_induction closing opener closer depth cs generalizing n with
  | case1 => cases found
  | case2 depth cs ih =>
    obtain ⟨m, found', rfl⟩ := Option.map_eq_some_iff.1 found
    obtain ⟨rest, is⟩ := ih found'
    exact ⟨rest, congrArg _ is⟩
  | case3 cs =>
    cases found
    exact ⟨cs, rfl⟩
  | case4 cs depth _ ih =>
    obtain ⟨m, found', rfl⟩ := Option.map_eq_some_iff.1 found
    obtain ⟨rest, is⟩ := ih found'
    exact ⟨rest, congrArg _ is⟩
  | case5 depth c cs _ _ ih =>
    obtain ⟨m, found', rfl⟩ := Option.map_eq_some_iff.1 found
    obtain ⟨rest, is⟩ := ih found'
    exact ⟨rest, congrArg _ is⟩

/-- The outcomes of cutting a block. -/
theorem block_cases (s : Span) :
    ('\x7b' ∉ s.chars ∧ s.block = .error ⟨s.start, .expectedBlock⟩) ∨
    ∃ lead inside, s.chars = lead ++ '\x7b' :: inside ∧ '\x7b' ∉ lead ∧
      ((closing '\x7b' '\x7d' 0 inside = none ∧
        s.block = .error ⟨s.start + lead.length, .unmatchedBlock⟩) ∨
      ∃ n b, closing '\x7b' '\x7d' 0 inside = some n ∧ s.block = .ok b ∧
        b.body.val = (s.drop (lead.length + 1)).take n ∧
        b.after.val = (s.drop (lead.length + 1)).drop (n + 1)) := by
  by_cases opens : '\x7b' ∈ s.chars
  · obtain ⟨lead, inside, chars, none⟩ := List.eq_append_cons_of_mem opens
    have run : s.chars.takeWhile (· ≠ '\x7b') = lead := chars ▸ takeWhile_ne_append none inside
    have left : (s.drop (lead.length + 1)).chars = inside := by
      rw [chars_drop, chars]
      simp
    have shorter : lead.length < s.size := by
      rw [Span.size, chars]
      simp
    refine .inr ⟨lead, inside, chars, none, ?_⟩
    unfold Span.block
    dsimp only
    rw [dif_pos (by rwa [run])]
    split
    · next n found =>
      rw [run, left] at found
      refine .inr ⟨n, _, found, rfl, ?_, ?_⟩
      · dsimp only
        rw [run]
      · dsimp only
        rw [run]
    · next found =>
      rw [run, left] at found
      refine .inl ⟨found, ?_⟩
      rw [run]
  · refine .inl ⟨opens, ?_⟩
    have run : s.chars.takeWhile (· ≠ '\x7b') = s.chars := by
      rw [List.takeWhile_eq_self_iff]
      intro c mem
      simp [ne_of_mem_of_not_mem mem opens]
    unfold Span.block
    dsimp only
    rw [dif_neg (by rw [run]; exact Nat.lt_irrefl _)]

/-- The offsets of the start and the end of a block's inside. -/
def ends (text : List Char) {n : Nat} (b : Block n) : Nat × Nat :=
  (offset text b.body.val.start, offset text (b.body.val.start + b.body.val.size))

/-- Where the inside of a block is. -/
theorem inside_of (region : Region text stop s) {lead inside : List Char} {n : Nat}
    {b : Block s.size} (chars : s.chars = lead ++ '\x7b' :: inside)
    (closed : closing '\x7b' '\x7d' 0 inside = some n)
    (body : b.body.val = (s.drop (lead.length + 1)).take n)
    (after : b.after.val = (s.drop (lead.length + 1)).drop (n + 1)) :
    offset text b.body.val.start = offset text s.start + utf8Length lead + 1 ∧
    offset text (b.body.val.start + b.body.val.size) =
      offset text s.start + utf8Length lead + (offset inside n + 1) ∧
    Region text (ends text b).2 b.body.val ∧ Region text stop b.after.val ∧
      offset text b.after.val.start = (ends text b).2 + 1 := by
  have length : (lead ++ ['\x7b']).length = lead.length + 1 := by simp
  have opened := @Region.offset_prefix _ _ _ region (lead ++ ['\x7b']) ⟨inside, by simp [chars]⟩
  rw [length, utf8Length_append, utf8Length_ascii (by decide)] at opened
  have left : (s.drop (lead.length + 1)).chars = inside := by
    rw [chars_drop, chars]
    simp
  obtain ⟨region', -⟩ := @Region.drop _ _ _ region (lead.length + 1) (by
    rw [Span.size, chars]
    simp)
  have shorter := closing_lt closed
  obtain ⟨rest, split⟩ := closing_split closed
  have size : (inside.take n).length = n := List.length_take_of_le (Nat.le_of_lt shorter)
  have bodyChars : b.body.val.chars = inside.take n := by
    rw [body, ← left]
    rfl
  have bodySize : b.body.val.size = n := by rw [Span.size, bodyChars, size]
  have start : b.body.val.start = s.start + (lead.length + 1) := by
    rw [body]
    rfl
  have close : offset text (s.start + (lead.length + 1) + n) =
      offset text s.start + (utf8Length lead + 1) + offset inside n := by
    rw [← opened, ← left]
    exact region'.offset_add (by rw [Span.size, left]; exact Nat.le_of_lt shorter)
  have behind : offset text (s.start + (lead.length + 1) + (n + 1)) =
      offset text (s.start + (lead.length + 1) + n) + 1 := by
    have closer := @Region.offset_prefix _ _ _ region' (inside.take n ++ ['\x7d']) ⟨rest, by
      rw [left, List.append_assoc]
      exact split.symm⟩
    rw [List.length_append, size, List.length_singleton, utf8Length_append,
      utf8Length_ascii (by decide)] at closer
    rw [close, ← opened]
    exact closer.trans (Nat.add_assoc _ _ 1).symm
  refine ⟨?_, ?_, ?_, ?_, ?_⟩
  · rw [start, opened, Nat.add_assoc]
  · rw [start, bodySize, close]
    omega
  · obtain ⟨before, after', text_eq, start', -, -⟩ := region'
    have here : text = before ++ (b.body.val.chars ++ ('\x7d' :: rest ++ after')) := by
      rw [text_eq, left, bodyChars, ← List.append_assoc (inside.take n), ← split]
    have begins : b.body.val.start = before.length := start.trans start'
    refine ⟨before, '\x7d' :: rest ++ after', here, begins, ?_, by rintro _ ⟨⟩; decide⟩
    show offset text (b.body.val.start + b.body.val.chars.length) = _
    rw [begins, here, ← List.length_append, ← List.append_assoc, offset_left, utf8Length_append]
  · rw [after]
    exact (region'.drop (by rw [Span.size, left]; exact shorter)).1
  · rw [ends, start, bodySize, ← behind, after]
    rfl

theorem block_eq (region : Region text stop s) :
    block text stop (offset text s.start) = told text (ends text) s.block := by
  have opener := asciiOnly_eq (by decide : '\x7b'.toNat < 128)
  have whole := @Region.byteSlice _ _ _ Failure region 0 (Nat.zero_le _)
  rw [Nat.add_zero, List.drop_zero] at whole
  rw [block, whole]
  simp only [bind, Except.bind]
  rcases block_cases s with ⟨none, failed⟩ | ⟨lead, inside, chars, none, cut⟩
  · rw [opener.findIdx?_none fun c mem => decide_eq_false (ne_of_mem_of_not_mem mem none), failed]
    rfl
  · have start := region.offset_prefix ⟨'\x7b' :: inside, chars.symm⟩
    have group := @Region.byteSlice _ _ _ Failure region lead.length (by
      rw [Span.size, chars]
      simp)
    rw [start, chars, List.drop_left' rfl] at group
    rw [chars, opener.findIdx?_some (fun c mem => decide_eq_false (ne_of_mem_of_not_mem mem none))
      (decide_eq_true rfl)]
    dsimp only
    rw [group]
    dsimp only
    rw [matching_group (by decide) (by decide)]
    rcases cut with ⟨unclosed, failed⟩ | ⟨n, b, closed, read, body, after⟩
    · rw [unclosed, failed, ← start]
      rfl
    · obtain ⟨first, last, -⟩ := inside_of region chars closed body after
      rw [closed, read]
      show Except.ok (_, _) = Except.ok (ends text b)
      rw [ends, first, last]

/-- The inside of a block is a region, and so is what follows its closing brace. -/
theorem block_region (region : Region text stop s) {b : Block s.size} (read : s.block = .ok b) :
    Region text (ends text b).2 b.body.val ∧ Region text stop b.after.val ∧
      offset text b.after.val.start = (ends text b).2 + 1 := by
  rcases block_cases s with ⟨-, failed⟩ | ⟨lead, inside, chars, -, ⟨-, failed⟩ |
    ⟨n, b', closed, read', body, after⟩⟩
  · rw [failed] at read
    cases read
  · rw [failed] at read
    cases read
  · rw [read'] at read
    cases read
    exact (inside_of region chars closed body after).2.2

end

end SurfaceShading.Grammar.Bytewise
