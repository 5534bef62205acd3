/-
  The lines of a block by byte offsets: attributes, declarations and all properties are what the
  reader of characters makes of the lines, with failures at the offsets of their lines.
-/
import SurfaceShading.Proofs.Grammar.Bytewise.Scanning

namespace SurfaceShading.Grammar.Bytewise

open Text

/-! ## Attributes -/

section

variable {text : List Char} {s : Span}

/-- A region that ends with its text. -/
theorem Region.getElem?_start (region : Region text (utf8Length text) s) :
    (units text)[offset text s.start]? = s.chars.head?.map leadByteChar := by
  obtain ⟨before, after, rfl, start, stop, -⟩ := region
  have none : after = [] := by
    refine Decidable.byContradiction fun nonempty => ?_
    have positive := utf8Length_pos nonempty
    rw [utf8Length_append, utf8Length_append] at stop
    omega
  rw [start, none, List.append_nil, offset_left, getElem?_units]

theorem asciiOnly_separator : AsciiOnly fun c => isAsciiBlank c || c == ',' := by
  intro c is
  rcases Bool.or_eq_true_iff.1 is with blank | comma
  · exact asciiOnly_blank c blank
  · rw [beq_iff_eq.1 comma]
    decide

/-- The offsets of the start and the end of what is inside a group, and of what is behind it. -/
theorem group_offsets {stop : Nat} (region : Region text stop s) {inside : List Char} {n : Nat}
    (chars : s.chars = '(' :: inside) (closed : closing '(' ')' 0 inside = some n) :
    offset text (s.start + 1) = offset text s.start + 1 ∧
    offset text (s.start + (n + 1)) = offset text s.start + (offset inside n + 1) ∧
    offset text (s.start + (n + 2)) = offset text s.start + (offset inside n + 1) + 1 := by
  obtain ⟨rest, split⟩ := closing_split closed
  have size : (inside.take n).length = n := List.length_take_of_le (Nat.le_of_lt (closing_lt closed))
  have first := @Region.offset_prefix _ _ _ region ['('] ⟨inside, chars.symm⟩
  have close := @Region.offset_prefix _ _ _ region ('(' :: inside.take n) ⟨')' :: rest, by
    rw [chars, List.cons_append, ← split]⟩
  have behind := @Region.offset_prefix _ _ _ region ('(' :: inside.take n ++ [')']) ⟨rest, by
    rw [chars, List.append_assoc, List.cons_append]
    exact congrArg _ split.symm⟩
  rw [utf8Length_ascii (by decide)] at first
  rw [List.length_cons, size, utf8Length_cons] at close
  rw [List.length_append, List.length_cons, size, utf8Length_append, utf8Length_cons,
    utf8Length_ascii (by decide)] at behind
  have one : '('.utf8Size = 1 := rfl
  have width : utf8Length (inside.take n) = offset inside n := rfl
  refine ⟨first, ?_, ?_⟩
  · rw [close]
    omega
  · refine behind.trans ?_
    omega

/-- A group is found by its units, and cut out with its inside. -/
theorem group_eq (region : Region text (utf8Length text) s) {inside : List Char}
    (chars : s.chars = '(' :: inside) :
    (byteSlice text (offset text s.start) (utf8Length text) : Except (Stop PropertyFault) _) =
        .ok (units ('(' :: inside)) ∧
    (matching '(' ')' 0 (units ('(' :: inside)) : Except (Stop PropertyFault) _) =
        .ok (((closing '(' ')' 0 inside).map (offset inside)).map (· + 1)) ∧
    ∀ n, closing '(' ')' 0 inside = some n → n + 2 ≤ s.size ∧
      (slice text (offset text s.start + 1) (offset text s.start + (offset inside n + 1)) :
        Except (Stop PropertyFault) _) = .ok (inside.take n) ∧
      offset text (s.start + (n + 2)) = offset text s.start + (offset inside n + 1) + 1 := by
  have group := @Region.byteSlice _ _ _ PropertyFault region 0 (Nat.zero_le _)
  rw [Nat.add_zero, List.drop_zero, chars] at group
  refine ⟨group, matching_group (by decide) (by decide) inside, fun n closed => ?_⟩
  have reach : n + 2 ≤ s.size := by
    rw [Span.size, chars, List.length_cons]
    exact Nat.succ_le_succ (closing_lt closed)
  obtain ⟨first, close, behind⟩ := group_offsets region chars closed
  have value := @Region.slice _ _ _ PropertyFault region 1 (n + 1) (by omega) (by omega)
  rw [first, close, chars, List.take_succ_cons, List.drop_succ_cons, List.drop_zero] at value
  exact ⟨reach, value, behind⟩

theorem attributesFrom_eq (region : Region text (utf8Length text) s) {rounds : Nat}
    (enough : utf8Length text - offset text s.start < rounds) (p : Property) :
    attributesFrom text rounds p (offset text s.start) = lift (readAttributes p s.chars) := by
  induction size : s.size using Nat.strong_induction_on generalizing s rounds p with
  | _ size ih =>
    subst size
    obtain ⟨rounds, rfl⟩ := Nat.exists_eq_succ_of_ne_zero (Nat.ne_zero_of_lt enough)
    -- From a later place on, the rounds that are left are enough.
    have further {n : Nat} (positive : 0 < n) (le : n ≤ s.size) (p : Property) :
        attributesFrom text rounds p (offset text (s.start + n)) =
          lift (readAttributes p (s.chars.drop n)) := by
      obtain ⟨region', -⟩ := region.drop le
      have shorter : (s.drop n).size < s.size := by
        rw [Span.size_drop]
        omega
      obtain ⟨advance, reach⟩ := region.advance region' shorter
      exact ih _ shorter region' (by omega) p rfl
    rw [attributesFrom]
    cases chars : s.chars with
    | nil =>
      have ended := region.stop_eq
      rw [Span.size, chars] at ended
      rw [if_neg (by rw [ended]; exact Nat.lt_irrefl _), readAttributes]
      rfl
    | cons c rest =>
      have here := @Region.byteAt _ _ _ PropertyFault region 0 c rest chars
      have within : offset text s.start < utf8Length text := by
        obtain ⟨region', -⟩ := @Region.drop _ _ _ region 1 (by
          rw [Span.size, chars]
          simp)
        obtain ⟨advance, reach⟩ := region.advance region' (by
          rw [Span.size_drop, Span.size, chars]
          simp)
        omega
      rw [Nat.add_zero] at here
      rw [if_pos within, here]
      simp only [bind, Except.bind]
      have size : 1 ≤ s.size := by
        rw [Span.size, chars]
        exact Nat.succ_le_succ (Nat.zero_le _)
      rw [asciiOnly_separator.lead c, asciiOnly_nameStart.lead c]
      by_cases separator : (isAsciiBlank c || c == ',') = true
      · have step := @Region.offset_prefix _ _ _ region [c] ⟨rest, chars.symm⟩
        have later := further Nat.one_pos size p
        rw [utf8Length_ascii (asciiOnly_separator c separator), List.length_singleton] at step
        rw [step, chars] at later
        rw [if_pos separator, readAttributes, if_pos separator]
        exact later
      rw [if_neg separator]
      by_cases start : isNameStart c = true
      · obtain ⟨word, length, region'⟩ := @word_eq _ _ _ PropertyFault region _ _ chars start
        have behind := region'.getElem?_start
        have left : (s.drop (c :: rest.takeWhile isNameChar).length).chars =
            rest.drop (rest.takeWhile isNameChar).length := by
          rw [chars_drop, chars]
          rfl
        rw [if_pos start, word]
        dsimp only
        rw [behind, left]
        by_cases here : (rest.drop (rest.takeWhile isNameChar).length).head? = some '('
        · obtain ⟨inside, is⟩ := List.head?_eq_some_iff.1 here
          have chars' := left.trans is
          obtain ⟨group, matched, cut⟩ := group_eq region' chars'
          rw [here, Option.map_some, leadByteChar_ascii (by decide), if_pos rfl, group,
            readAttributes_group start is]
          dsimp only
          rw [matched]
          cases closed : closing '(' ')' 0 inside with
          | none => rfl
          | some m =>
            obtain ⟨reach, value, behindGroup⟩ := cut m closed
            dsimp only [Option.map]
            rw [value]
            dsimp only [lift]
            cases withAttribute p (String.ofList (c :: rest.takeWhile isNameChar))
                (inside.take m) with
            | error fault => rfl
            | ok p =>
              have later := @further ((c :: rest.takeWhile isNameChar).length + (m + 2))
                (by omega) (by rw [Span.size_drop] at reach; omega) p
              rw [← List.drop_drop, ← chars_drop, chars', List.drop_succ_cons, ← Nat.add_assoc] at later
              rw [← behindGroup]
              exact later
        · rw [if_neg (mt (head?_lead_iff (by decide) _).1 here), readAttributes_noGroup start here]
          rfl
      · rw [if_neg start, readAttributes, if_neg separator, if_neg start]
        rfl

theorem region_whole (text : List Char) : Region text (utf8Length text) (.whole text) :=
  ⟨[], [], by simp [Span.whole], rfl, by simp [Span.whole, utf8Length], by simp⟩

theorem attributes_eq (p : Property) (text : List Char) :
    attributes p text = lift (readAttributes p text) :=
  attributesFrom_eq (region_whole text) (Nat.lt_succ_of_le (Nat.sub_le _ _)) p

end

/-! ## Declarations -/

/-- The offset of the last of some character. -/
theorem findLast_append {c : Char} {tail : List Char} (none : c ∉ tail) (before : List Char) :
    findLast c (before ++ c :: tail) = some (utf8Length before) := by
  have run : (before ++ c :: tail).reverse.takeWhile (· ≠ c) = tail.reverse := by
    rw [List.reverse_append, List.reverse_cons, List.append_assoc, List.singleton_append]
    exact takeWhile_ne_append (by simpa using none) _
  have place : (before ++ c :: tail).length - 1 - tail.reverse.length = before.length := by
    simp
  rw [findLast, if_pos (by simp), run, place, offset_left]

theorem find_char {c : Char} {before : List Char} (none : c ∉ before) (after : List Char) :
    find [c] (before ++ c :: after) = some (utf8Length before) := by
  rw [find, indexOf?_char none, Option.map_some, offset_left]

/-- The last of some character splits a text. -/
theorem exists_last {c : Char} {cs : List Char} (mem : c ∈ cs) :
    ∃ before tail, cs = before ++ c :: tail ∧ c ∉ tail := by
  obtain ⟨tail, before, is, none⟩ := List.eq_append_cons_of_mem (List.mem_reverse.2 mem)
  refine ⟨before.reverse, tail.reverse, ?_, by simpa using none⟩
  rw [← List.reverse_reverse cs, is]
  simp

theorem cutAttributes_eq (line : List Char) :
    cutAttributes line = lift (splitAttributes line) := by
  by_cases opens : '\x7b' ∈ line
  · obtain ⟨head, inside, rfl, none⟩ := List.eq_append_cons_of_mem opens
    have run := takeWhile_ne_append none inside
    rw [cutAttributes, find_char none, splitAttributes]
    dsimp only
    rw [run, List.drop_left' rfl]
    dsimp only
    by_cases closes : '\x7d' ∈ inside
    · obtain ⟨body, tail, rfl, last⟩ := exists_last closes
      have text : head ++ '\x7b' :: (body ++ '\x7d' :: tail) =
          (head ++ '\x7b' :: body) ++ '\x7d' :: tail := by simp
      have one : utf8Length ['\x7b'] = 1 := by decide
      have one' : utf8Length ['\x7d'] = 1 := by decide
      have closing : utf8Length (head ++ '\x7b' :: body) = utf8Length head + 1 + utf8Length body := by
        rw [List.append_cons, utf8Length_append, utf8Length_append, one]
      have headSlice := @slice_middle PropertyFault [] head ('\x7b' :: (body ++ '\x7d' :: tail))
      have bodySlice := @slice_middle PropertyFault (head ++ ['\x7b']) body ('\x7d' :: tail)
      rw [show utf8Length [] = 0 from rfl, Nat.zero_add, List.nil_append] at headSlice
      have tailSlice := @slice_middle PropertyFault (head ++ '\x7b' :: body ++ ['\x7d']) tail []
      rw [utf8Length_append, one, ← List.append_cons, ← closing] at bodySlice
      rw [List.append_nil, ← utf8Length_append, utf8Length_append _ ['\x7d'], one',
        ← List.append_cons, ← text] at tailSlice
      have before : (body ++ '\x7d' :: tail).reverse.takeWhile (· ≠ '\x7d') = tail.reverse := by
        rw [List.reverse_append, List.reverse_cons, List.append_assoc, List.singleton_append]
        exact takeWhile_ne_append (by simpa using last) _
      have place : (body ++ '\x7d' :: tail).length - tail.length - 1 = body.length := by
        simp
        omega
      rw [text, findLast_append last, ← text]
      dsimp only
      rw [if_pos (by omega), tailSlice, if_pos (by simp), before, List.reverse_reverse]
      simp only [bind, Except.bind]
      split
      · rw [headSlice, bodySlice, place, List.take_left' rfl]
        rfl
      · rfl
    · have unmatched : (∃ closing, findLast '\x7d' (head ++ '\x7b' :: inside) = some closing ∧
          ¬ utf8Length head < closing) ∨ findLast '\x7d' (head ++ '\x7b' :: inside) = .none := by
        by_cases early : '\x7d' ∈ head
        · obtain ⟨body, tail, rfl, last⟩ := exists_last early
          have later : '\x7d' ∉ tail ++ '\x7b' :: inside := by simp [last, closes]
          refine .inl ⟨utf8Length body, ?_, ?_⟩
          · rw [List.append_assoc, List.cons_append, findLast_append later]
          · rw [utf8Length_append]
            omega
        · exact .inr (if_neg (by simp [early, closes]))
      rw [if_neg (by simpa using closes)]
      rcases unmatched with ⟨closing, found, order⟩ | found
      · rw [found]
        dsimp only
        rw [if_neg order]
        rfl
      · rw [found]
        rfl
  · have none : find ['\x7b'] line = none := by
      have apart : ¬ ['\x7b'] <:+: line := fun is => opens (is.subset List.mem_cons_self)
      rw [find, indexOf?_eq_none_iff.2 apart]
      rfl
    have run : line.takeWhile (· ≠ '\x7b') = line := by
      rw [List.takeWhile_eq_self_iff]
      intro c mem
      simp [ne_of_mem_of_not_mem mem opens]
    rw [cutAttributes, none, splitAttributes]
    dsimp only
    rw [run, List.drop_length]
    dsimp only
    split <;> rfl

theorem declaration_eq (line : List Char) : declaration line = lift (readDeclaration line) := by
  rw [declaration, readDeclaration, cutAttributes_eq]
  cases splitAttributes line with
  | error fault => rfl
  | ok parts =>
    obtain ⟨head, listed⟩ := parts
    dsimp only [lift, Except.mapError, bind, Except.bind]
    cases words head with
    | nil => rfl
    | cons typeWord rest =>
      dsimp only
      cases PropertyType.ofName? (String.ofList typeWord) with
      | none => rfl
      | some type =>
        cases rest with
        | nil => rfl
        | cons word rest =>
          cases rest with
          | nil =>
            dsimp only
            by_cases is : isName word = true
            · rw [if_pos is, if_pos is, attributes_eq]
              rfl
            · rw [if_neg is, if_neg is]
          | cons extra rest => rfl

/-! ## Lines -/

theorem findIdx?_middle {α : Type} {p : α → Bool} {before : List α} (none : ∀ x ∈ before, p x = false)
    {x : α} (is : p x = true) (after : List α) :
    (before ++ x :: after).findIdx? p = some before.length := by
  rw [List.findIdx?_append, List.findIdx?_eq_none_iff.2 none, List.findIdx?_cons, is, if_pos rfl,
    Option.none_or, Option.map_some, Nat.zero_add]

/-- Code without the blank lines around it is cut from its lines. -/
theorem trimLines_eq {ε : Type} (code : List Char) :
    (trimLines code : Except (Stop ε) _) = .ok (trimBlankLines code) := by
  -- A list of lines up to the first that is not blank.
  have cut (all : List (List Char)) : (∀ line ∈ all.takeWhile isBlankLine, (!isBlankLine line) = false) ∧
      ∀ line ∈ (all.dropWhile isBlankLine).head?, (!isBlankLine line) = true := by
    refine ⟨fun line mem => ?_, fun line mem => ?_⟩
    · rw [List.mem_takeWhile_imp mem]
      rfl
    · have stops := List.head?_dropWhile_not isBlankLine all
      rw [Option.mem_def.1 mem] at stops
      simpa using stops
  rw [trimLines, trimBlankLines]
  generalize lines code = all
  have halves := List.takeWhile_append_dropWhile (p := isBlankLine) (l := all)
  obtain ⟨blank, solid⟩ := cut all
  cases kept : all.dropWhile isBlankLine with
  | nil =>
    rw [kept, List.append_nil] at halves
    rw [halves] at blank
    rw [List.findIdx?_eq_none_iff.2 blank]
    rfl
  | cons line rest =>
    rw [kept] at halves solid
    have halves' := List.takeWhile_append_dropWhile (p := isBlankLine) (l := (line :: rest).reverse)
    obtain ⟨blank', solid'⟩ := cut (line :: rest).reverse
    have first := findIdx?_middle blank (solid line rfl) rest
    generalize all.takeWhile isBlankLine = before at *
    generalize (line :: rest).reverse.takeWhile isBlankLine = after at *
    cases kept' : (line :: rest).reverse.dropWhile isBlankLine with
    | nil =>
      rw [kept', List.append_nil] at halves'
      have mem : line ∈ after := by rw [halves']; simp
      exact absurd (solid line rfl) (by rw [blank' line mem]; exact Bool.false_ne_true)
    | cons final inner =>
      rw [kept'] at halves' solid'
      have reversed : all.reverse = after ++ final :: (inner ++ before.reverse) := by
        rw [← halves, List.reverse_append, ← halves', List.append_assoc, List.cons_append]
      have last := findIdx?_middle blank' (solid' final rfl) (inner ++ before.reverse)
      rw [← reversed] at last
      rw [halves] at first
      have size := congrArg List.length reversed
      have whole : all = before ++ ((final :: inner).reverse ++ after.reverse) := by
        rw [← List.reverse_reverse all, reversed]
        simp
      simp only [List.length_reverse, List.length_append, List.length_cons] at size
      rw [first, last]
      dsimp only [Option.map, Option.getD]
      rw [if_pos (by omega)]
      refine congrArg (fun ls => Except.ok (joinWith ['\n'] ls)) ?_
      have stop : all.length - 1 - after.length + 1 = (before ++ (final :: inner).reverse).length := by
        simp
        omega
      rw [stop, whole, ← List.append_assoc, List.take_left' rfl, List.drop_left' rfl]

/-- A region with the offset of its start for its place. -/
def inBytes (text : List Char) (s : Span) : Span := ⟨offset text s.start, s.chars⟩

/-- Lines that are joined where a text goes on have the offsets of their places. -/
theorem linesAt_eq {text : List Char} {pieces : List (List Char)} {start : Nat}
    (joined : joinWith ['\n'] pieces <+: text.drop start) :
    linesAt (offset text start) pieces =
      (Span.lines.placed start pieces).map (inBytes text) := by
  induction pieces generalizing start with
  | nil => rfl
  | cons piece pieces ih =>
    rw [linesAt, Span.lines.placed, List.map_cons]
    refine congrArg (_ :: ·) ?_
    cases pieces with
    | nil => rfl
    | cons next pieces =>
      obtain ⟨rest, split⟩ := joined
      rw [joinWith_cons _ _ (by simp), List.append_assoc, List.append_assoc] at split
      have here : offset (text.drop start) (piece ++ ['\n']).length = utf8Length piece + 1 := by
        rw [← split, ← List.append_assoc, offset_left, utf8Length_append]
        rfl
      have step : offset text (start + piece.length + 1) =
          offset text start + utf8Length piece + 1 := by
        rw [Nat.add_assoc, offset_add, Nat.add_assoc, ← here]
        simp
      rw [← step]
      refine ih ⟨rest, ?_⟩
      rw [Nat.add_assoc, ← List.drop_drop, ← split, ← List.append_assoc piece,
        List.drop_left' (by simp)]

theorem declarations_eq {text : List Char} (seen : List Property) (lines : List Span) :
    declarations seen (lines.map (inBytes text)) = told text id (readDeclarations seen lines) := by
  induction lines generalizing seen with
  | nil => rfl
  | cons line lines ih =>
    rw [List.map_cons, declarations, readDeclarations, declaration?]
    dsimp only [inBytes]
    cases after? propertyMark (trim line.chars) with
    | none => exact ih seen
    | some rest =>
      dsimp only [Option.map]
      rw [declaration_eq]
      cases readDeclaration (trim rest) with
      | error fault => rfl
      | ok p =>
        simp only [lift, Except.mapError, bind, Except.bind]
        split
        · rfl
        · exact ih _

section

variable {text : List Char} {stop : Nat} {s : Span}

/-- The lines of a region by their offsets. -/
theorem lines_eq (region : Region text stop s) :
    slice text (offset text s.start) stop = (.ok s.chars : Scan _) ∧
      linesAt (offset text s.start) (splitAtChar '\n' s.chars) = s.lines.map (inBytes text) := by
  have whole := @Region.slice _ _ _ Failure region 0 s.size (Nat.zero_le _) (Nat.le_refl _)
  rw [Nat.add_zero, List.drop_zero, Span.size, List.take_length] at whole
  refine ⟨by rw [region.stop_eq]; exact whole, linesAt_eq ?_⟩
  obtain ⟨before, after, rfl, start, -, -⟩ := region
  rw [joinWith_splitAtChar, start, List.drop_left' rfl]
  exact List.prefix_append _ _

theorem properties_eq (region : Region text stop s) :
    properties text (offset text s.start) stop = told text id (readProperties s) := by
  obtain ⟨whole, lines⟩ := lines_eq region
  rw [properties, whole]
  simp only [bind, Except.bind]
  rw [lines, declarations_eq]
  rfl

end

end SurfaceShading.Grammar.Bytewise
