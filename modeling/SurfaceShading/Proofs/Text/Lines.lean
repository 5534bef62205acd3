/-
  The lines of a text. Cutting a text at its line feeds and joining the pieces again are inverse
  to each other (`splitAtChar_joinWith`), a carriage return before a line feed does not change
  what a line holds, and blank lines are cut off at the ends of a block of code only.
-/
import SurfaceShading.Proofs.Text.Cuts

namespace SurfaceShading.Text

/-! ## Trimming -/

/-- A text is its trimmed form with blanks around it. -/
theorem exists_trim (cs : List Char) : ∃ before after, cs = before ++ trim cs ++ after ∧
    (∀ c ∈ before, isBlank c = true) ∧ (∀ c ∈ after, isBlank c = true) := by
  refine ⟨cs.takeWhile isBlank, (cs.dropWhile isBlank).rtakeWhile isBlank, ?_,
    fun c mem => List.mem_takeWhile_imp mem, fun c mem => List.mem_rtakeWhile_imp mem⟩
  rw [trim, trimEnd_eq_rdropWhile, List.append_assoc, List.rdropWhile_append_rtakeWhile,
    List.takeWhile_append_dropWhile]

theorem mem_trim {c : Char} {cs : List Char} (mem : c ∈ trim cs) : c ∈ cs := by
  obtain ⟨before, after, is, -⟩ := exists_trim cs
  rw [is]
  simp [mem]

theorem trimmed_trim (cs : List Char) : Trimmed (trim cs) := by
  rw [trim, trimEnd_eq_rdropWhile]
  constructor
  · intro c mem
    obtain ⟨cs', is⟩ := List.head?_eq_some_iff.1 (Option.mem_def.1 mem)
    obtain ⟨after, whole⟩ := List.rdropWhile_prefix isBlank (cs.dropWhile isBlank)
    have first := List.head?_dropWhile_not isBlank cs
    rw [← whole, is] at first
    simpa using first
  · intro c mem
    obtain ⟨nonempty, rfl⟩ := List.mem_getLast?_eq_getLast mem
    exact Bool.eq_false_iff.2 (List.rdropWhile_last_not isBlank _ nonempty)

/-! ## Words -/

/-- A text that does not start with a blank starts with a word. -/
theorem exists_word {c : Char} {cs : List Char} (solid : isBlank c = false) :
    ∃ word rest, c :: cs = word ++ rest ∧ Word word ∧ (∀ d ∈ rest.head?, isBlank d = true) := by
  refine ⟨(c :: cs).takeWhile (!isBlank ·), (c :: cs).dropWhile (!isBlank ·),
    List.takeWhile_append_dropWhile.symm, ⟨?_, fun d mem => ?_⟩, fun d mem => ?_⟩
  · rw [List.takeWhile_cons_of_pos (by simp [solid])]
    exact List.cons_ne_nil _ _
  · simpa using List.mem_takeWhile_imp mem
  · have stops := List.head?_dropWhile_not (!isBlank ·) (c :: cs)
    rw [Option.mem_def.1 mem] at stops
    simpa using stops

/-- A text is empty, or begins with a blank, or begins with a word. -/
theorem word_induction {motive : List Char → Prop} (empty : motive [])
    (blank : ∀ c cs, isBlank c = true → motive cs → motive (c :: cs))
    (word : ∀ word rest, Word word → (∀ d ∈ rest.head?, isBlank d = true) → motive rest →
      motive (word ++ rest)) (cs : List Char) : motive cs := by
  induction length : cs.length using Nat.strong_induction_on generalizing cs with
  | _ length ih =>
    subst length
    cases cs with
    | nil => exact empty
    | cons c cs =>
      by_cases is : isBlank c = true
      · exact blank c cs is (ih _ (by simp) cs rfl)
      · obtain ⟨first, rest, split, isWord, stop⟩ := @exists_word c cs (Bool.eq_false_iff.2 is)
        rw [split]
        refine word first rest isWord stop (ih _ ?_ rest rfl)
        rw [split, List.length_append]
        exact Nat.lt_add_of_pos_left (List.length_pos_of_ne_nil isWord.1)

theorem word_of_mem_words {word cs : List Char} (mem : word ∈ words cs) : Word word := by
  induction cs using word_induction with
  | empty => cases mem
  | blank c cs is ih => exact ih (words_blank is cs ▸ mem)
  | word first rest isWord stop ih =>
    rw [words_word isWord stop] at mem
    rcases List.mem_cons.1 mem with rfl | later
    · exact isWord
    · exact ih later

theorem words_append_blanks (cs : List Char) {blanks : List Char}
    (blank : ∀ c ∈ blanks, isBlank c = true) : words (cs ++ blanks) = words cs := by
  induction cs using word_induction with
  | empty =>
    induction blanks with
    | nil => rfl
    | cons c blanks ih =>
      rw [List.nil_append, words_blank (blank c List.mem_cons_self)]
      exact ih fun d mem => blank d (List.mem_cons_of_mem c mem)
  | blank c cs is ih => rw [List.cons_append, words_blank is, words_blank is, ih]
  | word first rest isWord stop ih =>
    have stop' : ∀ d ∈ (rest ++ blanks).head?, isBlank d = true := by
      cases rest with
      | nil => exact fun d mem => blank d (List.mem_of_mem_head? mem)
      | cons d rest => exact stop
    rw [List.append_assoc, words_word isWord stop', words_word isWord stop, ih]

theorem words_trim (cs : List Char) : words (trim cs) = words cs := by
  obtain ⟨before, after, is, blank, blank'⟩ := exists_trim cs
  conv_rhs => rw [is, words_append_blanks _ blank']
  clear is
  induction before with
  | nil => rfl
  | cons c before ih =>
    rw [List.cons_append, words_blank (blank c List.mem_cons_self)]
    exact ih fun d mem => blank d (List.mem_cons_of_mem c mem)

/-! ## Finding -/

/-- A mark does not occur before the place where it is found. -/
theorem not_infix_take {needle cs : List Char} {i : Nat} (nonempty : needle ≠ [])
    (found : indexOf? needle cs = some i) : ¬ needle <:+: cs.take i := by
  induction cs generalizing i with
  | nil =>
    rw [List.take_nil]
    exact fun is => nonempty (List.infix_nil.1 is)
  | cons c cs ih =>
    rw [indexOf?] at found
    split at found
    · cases found
      exact fun is => nonempty (List.infix_nil.1 is)
    · next other =>
      obtain ⟨j, found', rfl⟩ := Option.map_eq_some_iff.1 found
      rw [List.take_succ_cons, List.infix_cons_iff]
      rintro (here | later)
      · refine other (List.isPrefixOf_iff_prefix.2 (here.trans ?_))
        exact List.cons_prefix_cons.2 ⟨rfl, List.take_prefix _ _⟩
      · exact ih found' later

/-! ## Cutting and joining -/

theorem not_mem_of_mem_splitAtChar {sep : Char} {cs piece : List Char}
    (mem : piece ∈ splitAtChar sep cs) : sep ∉ piece := by
  induction cs generalizing piece with
  | nil =>
    rw [splitAtChar, List.mem_singleton] at mem
    rw [mem]
    exact List.not_mem_nil
  | cons c cs ih =>
    rw [splitAtChar] at mem
    split at mem
    · rcases List.mem_cons.1 mem with rfl | later
      · exact List.not_mem_nil
      · exact ih later
    · next other =>
      cases pieces : splitAtChar sep cs with
      | nil => exact absurd pieces (splitAtChar_ne_nil sep cs)
      | cons first pieces =>
        rw [pieces] at mem ih
        rcases List.mem_cons.1 mem with rfl | later
        · exact fun mem => (List.mem_cons.1 mem).elim (Ne.symm other) (ih List.mem_cons_self)
        · exact ih (List.mem_cons_of_mem _ later)

/-- Pieces that are joined are cut again. -/
theorem splitAtChar_joinWith {sep : Char} {pieces : List (List Char)} (some : pieces ≠ [])
    (none : ∀ piece ∈ pieces, sep ∉ piece) :
    splitAtChar sep (joinWith [sep] pieces) = pieces := by
  induction pieces with
  | nil => exact absurd rfl some
  | cons piece pieces ih =>
    have here := none piece List.mem_cons_self
    by_cases more : pieces = []
    · rw [more]
      exact splitAtChar_single here
    · rw [joinWith_cons _ _ more, List.append_assoc]
      exact (splitAtChar_line here _).trans
        (congrArg _ (ih more fun p mem => none p (List.mem_cons_of_mem _ mem)))

/-- Where two texts of lines meet, the last line of one and the first of the other are one. -/
theorem joinWith_append (sep : List Char) (before : List (List Char)) (lead tail : List Char)
    (after : List (List Char)) :
    joinWith sep (before ++ [lead]) ++ joinWith sep (tail :: after) =
      joinWith sep (before ++ (lead ++ tail) :: after) := by
  induction before with
  | nil =>
    cases after with
    | nil => rfl
    | cons next after =>
      rw [List.nil_append, List.nil_append, joinWith_cons _ _ (List.cons_ne_nil _ _),
        joinWith_cons _ _ (List.cons_ne_nil _ _), joinWith, List.append_assoc, List.append_assoc,
        List.append_assoc]
  | cons piece before ih =>
    rw [List.cons_append, List.cons_append, joinWith_cons _ piece (by simp),
      joinWith_cons _ piece (by simp), List.append_assoc, ih]

theorem count_joinWith {sep : Char} {before : List (List Char)} {last : List Char}
    (none : ∀ piece ∈ before ++ [last], sep ∉ piece) :
    (joinWith [sep] (before ++ [last])).count sep = before.length := by
  induction before with
  | nil => exact List.count_eq_zero.2 (none last (by simp))
  | cons piece before ih =>
    obtain ⟨here, later⟩ := List.forall_mem_cons.1 none
    rw [List.cons_append, joinWith_cons _ _ (by simp), List.count_append, List.count_append,
      List.count_eq_zero.2 here, ih later, List.count_singleton_self, List.length_cons,
      Nat.zero_add, Nat.add_comm]

/-- The pieces of two texts are those of the texts put together, the last of the first and the
first of the second as one. -/
theorem splitAtChar_append {sep : Char} {cs ds lead tail : List Char}
    {before after : List (List Char)} (first : splitAtChar sep cs = before ++ [lead])
    (second : splitAtChar sep ds = tail :: after) :
    splitAtChar sep (cs ++ ds) = before ++ (lead ++ tail) :: after := by
  have whole : cs ++ ds = joinWith [sep] (before ++ (lead ++ tail) :: after) := by
    rw [← joinWith_append, ← first, ← second, joinWith_splitAtChar, joinWith_splitAtChar]
  have front : ∀ piece ∈ before ++ [lead], sep ∉ piece := fun piece mem =>
    not_mem_of_mem_splitAtChar (first ▸ mem)
  have back : ∀ piece ∈ tail :: after, sep ∉ piece := fun piece mem =>
    not_mem_of_mem_splitAtChar (second ▸ mem)
  rw [whole]
  refine splitAtChar_joinWith (by simp) fun piece mem => ?_
  rcases List.mem_append.1 mem with earlier | later
  · exact front piece (List.mem_append_left _ earlier)
  · rcases List.mem_cons.1 later with rfl | later
    · rw [List.mem_append, not_or]
      exact ⟨front lead (by simp), back tail List.mem_cons_self⟩
    · exact back piece (List.mem_cons_of_mem _ later)

/-- The lines of joined pieces. -/
theorem lines_joinWith {pieces : List (List Char)} (none : ∀ piece ∈ pieces, '\n' ∉ piece) :
    lines (joinWith ['\n'] pieces) = lines.endings pieces := by
  by_cases some : pieces = []
  · rw [some]
    rfl
  · rw [lines, splitAtChar_joinWith some none]

/-- Pieces can be told from what they are joined to, unless there is one and it is empty. -/
theorem joinWith_inj {sep : Char} {pieces pieces' : List (List Char)}
    (none : ∀ piece ∈ pieces, sep ∉ piece) (none' : ∀ piece ∈ pieces', sep ∉ piece)
    (some : pieces ≠ [[]]) (some' : pieces' ≠ [[]])
    (same : joinWith [sep] pieces = joinWith [sep] pieces') : pieces = pieces' := by
  by_cases nil : pieces = []
  · by_cases nil' : pieces' = []
    · rw [nil, nil']
    · have pieces_eq := splitAtChar_joinWith nil' none'
      rw [← same, nil] at pieces_eq
      exact absurd pieces_eq.symm some'
  · have pieces_eq := splitAtChar_joinWith nil none
    by_cases nil' : pieces' = []
    · rw [same, nil'] at pieces_eq
      exact absurd pieces_eq.symm some
    · rw [← pieces_eq, same, splitAtChar_joinWith nil' none']

theorem infix_joinWith {sep piece : List Char} {pieces : List (List Char)} (mem : piece ∈ pieces) :
    piece <:+: joinWith sep pieces := by
  induction pieces with
  | nil => cases mem
  | cons first pieces ih =>
    by_cases more : pieces = []
    · rw [more, List.mem_singleton] at mem
      rw [mem, more]
      exact List.infix_refl _
    · rw [joinWith_cons _ _ more]
      rcases List.mem_cons.1 mem with rfl | later
      · exact ⟨[], sep ++ joinWith sep pieces, by simp⟩
      · exact (ih later).trans (List.suffix_append _ _).isInfix

/-- What occurs in joined pieces and has no separator in it occurs in one of them. -/
theorem exists_infix_of_joinWith {sep : Char} {needle : List Char} (apart : sep ∉ needle)
    (nonempty : needle ≠ []) {pieces : List (List Char)}
    (is : needle <:+: joinWith [sep] pieces) : ∃ piece ∈ pieces, needle <:+: piece := by
  induction pieces with
  | nil => exact absurd (List.infix_nil.1 is) nonempty
  | cons piece pieces ih =>
    by_cases more : pieces = []
    · rw [more] at is
      exact ⟨piece, List.mem_cons_self, is⟩
    · by_cases here : needle <:+: piece
      · exact ⟨piece, List.mem_cons_self, here⟩
      · rw [joinWith_cons _ _ more, List.append_assoc] at is
        by_cases later : needle <:+: joinWith [sep] pieces
        · obtain ⟨found, mem, inside⟩ := ih later
          exact ⟨found, List.mem_cons_of_mem _ mem, inside⟩
        · exact absurd is (not_infix_append_cons apart nonempty here later)

/-! ## Carriage returns -/

/-- A line is what is left of it, or that with a carriage return behind it. -/
theorem dropReturn_cases (line : List Char) :
    dropReturn line = line ∨ line = dropReturn line ++ ['\r'] := by
  fun_induction dropReturn line with
  | case1 => exact .inl rfl
  | case2 => exact .inr rfl
  | case3 c cs _ ih => exact ih.imp (congrArg _) (congrArg _)

theorem isBlankLine_dropReturn (line : List Char) :
    isBlankLine (dropReturn line) = isBlankLine line := by
  rcases dropReturn_cases line with same | more
  · rw [same]
  · conv_rhs => rw [more, isBlankLine, List.all_append]
    exact (Bool.and_true _).symm

theorem dropReturn_prefix (line : List Char) : dropReturn line <+: line := by
  rcases dropReturn_cases line with same | more
  · rw [same]
  · exact ⟨['\r'], more.symm⟩

theorem dropReturn_append (line : List Char) : dropReturn (line ++ ['\r']) = line := by
  induction line with
  | nil => rfl
  | cons c line ih =>
    rw [List.cons_append, dropReturn, ih]
    simp

/-- All lines but the last were ended. -/
theorem endings_append (pieces : List (List Char)) (last : List Char) :
    lines.endings (pieces ++ [last]) =
      pieces.map dropReturn ++ if last.isEmpty then [] else [last] := by
  induction pieces with
  | nil => rfl
  | cons piece pieces ih =>
    rw [List.cons_append, lines.endings, ih] <;> simp

/-- Each line is one of the pieces, a carriage return at its end apart. -/
theorem mem_endings {pieces : List (List Char)} {line : List Char}
    (mem : line ∈ lines.endings pieces) :
    ∃ piece ∈ pieces, line = piece ∨ line = dropReturn piece := by
  cases pieces using List.reverseRecOn with
  | nil => cases mem
  | append_singleton pieces last =>
    rw [endings_append, List.mem_append] at mem
    rcases mem with ended | open'
    · obtain ⟨piece, inside, rfl⟩ := List.mem_map.1 ended
      exact ⟨piece, List.mem_append_left _ inside, .inr rfl⟩
    · refine ⟨last, by simp, .inl ?_⟩
      split at open'
      · cases open'
      · exact List.mem_singleton.1 open'

/-! ## Blank lines around the others -/

/-- The lines from the first to the last that hold something. -/
def withoutBlankEnds (lines : List (List Char)) : List (List Char) :=
  (lines.dropWhile isBlankLine).rdropWhile isBlankLine

theorem trimBlankLines_eq (code : List Char) :
    trimBlankLines code = joinWith ['\n'] (withoutBlankEnds (lines code)) := rfl

section

variable {lines : List (List Char)} {line : List Char}

theorem mem_of_withoutBlankEnds (mem : line ∈ withoutBlankEnds lines) : line ∈ lines :=
  (List.dropWhile_suffix _).subset ((List.rdropWhile_prefix _ _).subset mem)

theorem withoutBlankEnds_blank (blank : isBlankLine line = true) :
    withoutBlankEnds (lines ++ [line]) = withoutBlankEnds lines := by
  rw [withoutBlankEnds, withoutBlankEnds, List.dropWhile_append]
  split
  · next none =>
    rw [List.isEmpty_iff.1 none, List.dropWhile_cons_of_pos blank]
    rfl
  · exact List.rdropWhile_concat_pos _ _ _ blank

theorem withoutBlankEnds_solid (solid : isBlankLine line = false) :
    ∃ front, withoutBlankEnds (lines ++ [line]) = front ++ [line] := by
  have not : ¬ isBlankLine line = true := by rw [solid]; exact Bool.false_ne_true
  rw [withoutBlankEnds, List.dropWhile_append]
  split
  · rw [List.dropWhile_cons_of_neg not]
    exact ⟨[], List.rdropWhile_concat_neg (p := isBlankLine) (l := []) line not⟩
  · exact ⟨_, List.rdropWhile_concat_neg _ _ _ not⟩

theorem mem_withoutBlankEnds (mem : line ∈ lines) (solid : isBlankLine line = false) :
    line ∈ withoutBlankEnds lines := by
  have not : ¬ isBlankLine line = true := by rw [solid]; exact Bool.false_ne_true
  rw [← List.takeWhile_append_dropWhile (p := isBlankLine) (l := lines), List.mem_append] at mem
  have later := mem.resolve_left fun before => not (List.mem_takeWhile_imp before)
  rw [← List.rdropWhile_append_rtakeWhile (p := isBlankLine) (l := lines.dropWhile isBlankLine),
    List.mem_append] at later
  exact later.resolve_right fun after => not (List.mem_rtakeWhile_imp after)

/-- What is left is not one empty line. -/
theorem withoutBlankEnds_ne (lines : List (List Char)) : withoutBlankEnds lines ≠ [[]] := by
  intro is
  have solid := List.rdropWhile_last_not isBlankLine (lines.dropWhile isBlankLine)
    (by rw [show List.rdropWhile _ _ = _ from is]; exact List.cons_ne_nil _ _)
  simp only [show List.rdropWhile _ _ = _ from is] at solid
  exact solid rfl

end

end SurfaceShading.Text
