/-
  Cutting texts that are put together from known pieces: trimming what has no blank at its ends,
  splitting what is joined by a separator, finding a mark behind a text in which it does not
  occur, and trimming the blank lines around a block of code.
-/
import SurfaceShading.Text.Blank
import Mathlib.Data.List.DropRight
import Mathlib.Data.List.Infix

namespace SurfaceShading.Text

/-! ## Trimming -/

/-- A text with no blank at either end. -/
def Trimmed (cs : List Char) : Prop :=
  (∀ c ∈ cs.head?, isBlank c = false) ∧ ∀ c ∈ cs.getLast?, isBlank c = false

-- Tested on the characters at hand: a quantifier over characters may be decided over all of them.
instance (cs : List Char) : Decidable (Trimmed cs) :=
  decidable_of_iff ((cs.head?.all (!isBlank ·)) = true ∧ (cs.getLast?.all (!isBlank ·)) = true)
    (by simp [Trimmed, Option.all_eq_true])

theorem trimEnd_eq_rdropWhile (cs : List Char) : trimEnd cs = cs.rdropWhile isBlank := by
  induction cs using List.reverseRecOn with
  | nil => rfl
  | append_singleton cs c ih =>
    rw [List.rdropWhile_concat, ← ih]
    clear ih
    induction cs with
    | nil => rfl
    | cons d cs ih =>
      rw [List.cons_append, trimEnd, ih]
      by_cases blank : isBlank c = true
      · rw [if_pos blank, if_pos blank, trimEnd]
      · rw [if_neg blank, if_neg blank]
        cases cs <;> rfl

theorem trimEnd_append_blanks (cs : List Char) {blanks : List Char}
    (blank : ∀ c ∈ blanks, isBlank c = true) : trimEnd (cs ++ blanks) = trimEnd cs := by
  rw [trimEnd_eq_rdropWhile, trimEnd_eq_rdropWhile]
  induction blanks using List.reverseRecOn with
  | nil => rw [List.append_nil]
  | append_singleton blanks c ih =>
    rw [← List.append_assoc, List.rdropWhile_concat_pos _ _ _ (blank c (by simp))]
    exact ih fun c mem => blank c (List.mem_append_left _ mem)

theorem trimEnd_of_solid {cs : List Char} (solid : ∀ c ∈ cs.getLast?, isBlank c = false) :
    trimEnd cs = cs := by
  rw [trimEnd_eq_rdropWhile, List.rdropWhile_eq_self_iff]
  intro nonempty
  rw [solid _ (List.getLast?_eq_some_getLast nonempty)]
  exact Bool.false_ne_true

/-- Trimming takes the blanks around a trimmed text away and nothing else. -/
theorem trim_padded {before cs after : List Char} (trimmed : Trimmed cs)
    (blank : ∀ c ∈ before, isBlank c = true) (blank' : ∀ c ∈ after, isBlank c = true) :
    trim (before ++ cs ++ after) = cs := by
  rw [trim, List.append_assoc, List.dropWhile_append_of_pos blank]
  cases cs with
  | nil => rw [List.nil_append, List.dropWhile_eq_nil_iff.2 blank']; rfl
  | cons c cs =>
    have start : isBlank c = false := trimmed.1 c rfl
    rw [List.cons_append, List.dropWhile_cons_of_neg (by rw [start]; exact Bool.false_ne_true),
      ← List.cons_append, trimEnd_append_blanks _ blank', trimEnd_of_solid trimmed.2]

theorem Trimmed.trim {cs : List Char} (trimmed : Trimmed cs) : trim cs = cs := by
  have padded := @trim_padded [] cs [] trimmed (by simp) (by simp)
  rwa [List.nil_append, List.append_nil] at padded

theorem trim_blank_cons {c : Char} (blank : isBlank c = true) (cs : List Char) :
    trim (c :: cs) = trim cs := by
  rw [trim, trim, List.dropWhile_cons_of_pos blank]

theorem trim_ne_nil {cs : List Char} (solid : ∃ c ∈ cs, isBlank c = false) : trim cs ≠ [] := by
  obtain ⟨c, mem, is⟩ := solid
  have kept : c ∈ cs.dropWhile isBlank := by
    have mem' := mem
    rw [← List.takeWhile_append_dropWhile (p := isBlank) (l := cs), List.mem_append] at mem'
    refine mem'.resolve_left fun blank => ?_
    rw [List.mem_takeWhile_imp blank] at is
    cases is
  intro none
  rw [trim, trimEnd_eq_rdropWhile, List.rdropWhile_eq_nil_iff] at none
  rw [none c kept] at is
  cases is

theorem Trimmed.trimEnd {cs : List Char} (trimmed : Trimmed cs) : trimEnd cs = cs :=
  trimEnd_of_solid trimmed.2

theorem Trimmed.around {first last : List Char} (trimmed : Trimmed first) (nonempty : first ≠ [])
    (trimmed' : Trimmed last) (nonempty' : last ≠ []) (middle : List Char) :
    Trimmed (first ++ middle ++ last) := by
  constructor
  · rw [List.append_assoc, List.head?_append_of_ne_nil _ nonempty]
    exact trimmed.1
  · rw [List.getLast?_append_of_ne_nil _ nonempty']
    exact trimmed'.2

/-! ## Words -/

/-- A text that holds no blank and is not empty. -/
def Word (cs : List Char) : Prop := cs ≠ [] ∧ ∀ c ∈ cs, isBlank c = false

instance (cs : List Char) : Decidable (Word cs) :=
  decidable_of_iff (cs ≠ [] ∧ cs.all (!isBlank ·) = true) (by simp [Word])

theorem words_blank {c : Char} (blank : isBlank c = true) (cs : List Char) :
    words (c :: cs) = words cs := by
  rw [words.eq_def]
  exact if_pos blank

/-- A word at the start of a text, with the end or a blank behind it. -/
theorem words_word {w : List Char} (word : Word w) {cs : List Char}
    (stop : ∀ c ∈ cs.head?, isBlank c = true) : words (w ++ cs) = w :: words cs := by
  obtain ⟨nonempty, solid⟩ := word
  induction w with
  | nil => exact absurd rfl nonempty
  | cons c w ih =>
    have here : ¬ isBlank c = true := by simp [solid c List.mem_cons_self]
    rw [List.cons_append, words.eq_def]
    refine (if_neg here).trans ?_
    cases w with
    | nil =>
      cases cs with
      | nil => rfl
      | cons d cs => exact if_pos (stop d rfl)
    | cons d w =>
      have next : ¬ isBlank d = true := by simp [solid d (by simp)]
      have rest := ih (by simp) fun c mem => solid c (List.mem_cons_of_mem _ mem)
      rw [List.cons_append] at rest ⊢
      rw [rest]
      exact if_neg next

theorem Word.trimmed {w : List Char} (word : Word w) : Trimmed w :=
  ⟨fun c mem => word.2 c (List.mem_of_mem_head? mem),
    fun c mem => word.2 c (List.mem_of_getLast? mem)⟩

/-! ## Splitting -/

theorem splitAtChar_ne_nil (sep : Char) (cs : List Char) : splitAtChar sep cs ≠ [] := by
  cases cs with
  | nil => simp [splitAtChar]
  | cons c cs =>
    rw [splitAtChar]
    split
    · simp
    · split <;> simp

theorem splitAtChar_append_cons (sep : Char) (before after : List Char) :
    splitAtChar sep (before ++ sep :: after) = splitAtChar sep before ++ splitAtChar sep after := by
  induction before with
  | nil => exact if_pos rfl
  | cons c before ih =>
    rw [List.cons_append, splitAtChar, ih, splitAtChar]
    split
    · rfl
    · cases pieces : splitAtChar sep before with
      | nil => exact absurd pieces (splitAtChar_ne_nil sep before)
      | cons piece pieces => rfl

theorem splitAtChar_single {sep : Char} {cs : List Char} (none : sep ∉ cs) :
    splitAtChar sep cs = [cs] := by
  induction cs with
  | nil => rfl
  | cons c cs ih =>
    obtain ⟨other, rest⟩ := not_or.1 (mt List.mem_cons.2 none)
    rw [splitAtChar, if_neg (Ne.symm other), ih rest]

/-- A line and what follows its line feed. -/
theorem splitAtChar_line {sep : Char} {line : List Char} (none : sep ∉ line) (rest : List Char) :
    splitAtChar sep (line ++ sep :: rest) = line :: splitAtChar sep rest := by
  rw [splitAtChar_append_cons, splitAtChar_single none, List.singleton_append]

theorem joinWith_cons (sep : List Char) (piece : List Char) {pieces : List (List Char)}
    (more : pieces ≠ []) : joinWith sep (piece :: pieces) = piece ++ sep ++ joinWith sep pieces := by
  cases pieces with
  | nil => exact absurd rfl more
  | cons next pieces => rfl

theorem joinWith_splitAtChar (sep : Char) (cs : List Char) :
    joinWith [sep] (splitAtChar sep cs) = cs := by
  induction cs with
  | nil => rfl
  | cons c cs ih =>
    rw [splitAtChar]
    split
    · next same =>
      rw [joinWith_cons _ _ (splitAtChar_ne_nil sep cs), ih, same]
      rfl
    · cases pieces : splitAtChar sep cs with
      | nil => exact absurd pieces (splitAtChar_ne_nil sep cs)
      | cons piece pieces' =>
        rw [pieces] at ih
        cases pieces' with
        | nil => rw [joinWith] at ih; rw [joinWith, ih]
        | cons next pieces' =>
          rw [joinWith_cons _ _ (by simp)] at ih ⊢
          rw [← ih]
          rfl

theorem mem_joinWith {c : Char} {sep : List Char} {pieces : List (List Char)}
    (mem : c ∈ joinWith sep pieces) : c ∈ sep ∨ ∃ piece ∈ pieces, c ∈ piece := by
  induction pieces with
  | nil => cases mem
  | cons piece pieces ih =>
    by_cases more : pieces = []
    · rw [more, joinWith] at mem
      exact .inr ⟨piece, List.mem_cons_self, mem⟩
    · rw [joinWith_cons _ _ more, List.mem_append, List.mem_append] at mem
      rcases mem with (here | between) | later
      · exact .inr ⟨piece, List.mem_cons_self, here⟩
      · exact .inl between
      · refine (ih later).imp_right fun found => ?_
        obtain ⟨piece', mem', is⟩ := found
        exact ⟨piece', List.mem_cons_of_mem piece mem', is⟩

/-! ## Finding -/

/-- What stands before the first of some character. -/
theorem takeWhile_ne_append {sep : Char} {before : List Char} (none : sep ∉ before)
    (after : List Char) : (before ++ sep :: after).takeWhile (· ≠ sep) = before := by
  rw [List.takeWhile_append_of_pos, List.takeWhile_cons_of_neg (by simp), List.append_nil]
  intro c mem
  simp [ne_of_mem_of_not_mem mem none]

theorem after?_append (start rest : List Char) : after? start (start ++ rest) = some rest := by
  rw [after?, if_pos (List.isPrefixOf_iff_prefix.2 (List.prefix_append start rest)),
    List.drop_left' rfl]

theorem indexOf?_eq_none_iff {needle cs : List Char} :
    indexOf? needle cs = none ↔ ¬ needle <:+: cs := by
  induction cs with
  | nil => cases needle <;> simp [indexOf?]
  | cons c cs ih =>
    rw [indexOf?, List.infix_cons_iff]
    split
    · next here => simp [List.isPrefixOf_iff_prefix.1 here]
    · next other =>
      have apart : ¬ needle <+: c :: cs := fun is => other (List.isPrefixOf_iff_prefix.2 is)
      rw [Option.map_eq_none_iff, ih]
      simp [apart]

/-- A mark is at the place where it is found. -/
theorem indexOf?_eq_some {needle cs : List Char} {i : Nat} (found : indexOf? needle cs = some i) :
    ∃ before after, cs = before ++ (needle ++ after) ∧ before.length = i := by
  induction cs generalizing i with
  | nil =>
    rw [indexOf?] at found
    split at found
    · next empty =>
      cases found
      exact ⟨[], [], by simpa using empty, rfl⟩
    · cases found
  | cons c cs ih =>
    rw [indexOf?] at found
    split at found
    · next here =>
      cases found
      obtain ⟨after, is⟩ := List.isPrefixOf_iff_prefix.1 here
      exact ⟨[], after, is.symm, rfl⟩
    · obtain ⟨j, found', rfl⟩ := Option.map_eq_some_iff.1 found
      obtain ⟨before, after, rfl, rfl⟩ := ih found'
      exact ⟨c :: before, after, rfl, rfl⟩

theorem after?_eq_some {start cs rest : List Char} (behind : after? start cs = some rest) :
    cs = start ++ rest := by
  rw [after?] at behind
  split at behind
  · next is =>
    obtain ⟨rest', rfl⟩ := List.isPrefixOf_iff_prefix.1 is
    rw [List.drop_left' rfl] at behind
    rw [Option.some.inj behind]
  · cases behind

theorem isPrefix_of_append_cons {needle : List Char} {sep : Char} (apart : sep ∉ needle)
    {before after : List Char} (is : needle <+: before ++ sep :: after) : needle <+: before := by
  induction before generalizing needle with
  | nil =>
    cases needle with
    | nil => exact List.nil_prefix
    | cons c needle =>
      rw [List.nil_append, List.cons_prefix_cons] at is
      exact absurd (is.1 ▸ List.mem_cons_self) apart
  | cons d before ih =>
    cases needle with
    | nil => exact List.nil_prefix
    | cons c needle =>
      rw [List.cons_append, List.cons_prefix_cons] at is
      exact List.cons_prefix_cons.2 ⟨is.1, ih (mt (List.mem_cons_of_mem c) apart) is.2⟩

/-- A mark does not begin in one of two pieces and end in the other if the character between
them is none of its own. -/
theorem indexOf?_append_cons {needle : List Char} {sep : Char} (apart : sep ∉ needle)
    (nonempty : needle ≠ []) {before : List Char} (none : ¬ needle <:+: before)
    (after : List Char) :
    indexOf? needle (before ++ sep :: after) =
      (indexOf? needle after).map (· + (before.length + 1)) := by
  induction before with
  | nil =>
    have other : ¬ needle.isPrefixOf (sep :: after) = true := fun is =>
      nonempty (List.prefix_nil.1 (@isPrefix_of_append_cons _ _ apart [] after
        (List.isPrefixOf_iff_prefix.1 is)))
    rw [List.nil_append, indexOf?, if_neg other]
    rfl
  | cons c before ih =>
    obtain ⟨here, later⟩ := not_or.1 (mt List.infix_cons_iff.2 none)
    have other : ¬ needle.isPrefixOf (c :: before ++ sep :: after) = true := fun is =>
      here (isPrefix_of_append_cons apart (List.isPrefixOf_iff_prefix.1 is))
    rw [List.cons_append] at other ⊢
    rw [indexOf?, if_neg other, ih later, Option.map_map]
    rfl

/-- A mark is found where it stands. -/
theorem indexOf?_prefix {needle : List Char} (nonempty : needle ≠ []) (after : List Char) :
    indexOf? needle (needle ++ after) = some 0 := by
  cases needle with
  | nil => exact absurd rfl nonempty
  | cons c needle =>
    exact if_pos (List.isPrefixOf_iff_prefix.2 (List.prefix_append _ _))

/-- The place of the first of some character. -/
theorem indexOf?_char {c : Char} {before : List Char} (none : c ∉ before) (after : List Char) :
    indexOf? [c] (before ++ c :: after) = some before.length := by
  induction before with
  | nil => exact if_pos (by simp)
  | cons d before ih =>
    obtain ⟨other, later⟩ := not_or.1 (mt List.mem_cons.2 none)
    rw [List.cons_append, indexOf?, if_neg (by simp [other]), ih later]
    rfl

/-- The place of a mark behind a text in which it does not occur, and a character that is none of
its own. -/
theorem indexOf?_behind {needle : List Char} {sep : Char} (apart : sep ∉ needle)
    (nonempty : needle ≠ []) {before : List Char} (none : ¬ needle <:+: before)
    (after : List Char) :
    indexOf? needle ((before ++ [sep]) ++ (needle ++ after)) = some (before ++ [sep]).length := by
  rw [← List.append_cons, indexOf?_append_cons apart nonempty none, indexOf?_prefix nonempty, Option.map_some,
    Nat.zero_add, List.length_append, List.length_singleton]

/-- The same for what does not occur in either of two pieces. -/
theorem not_infix_append_cons {needle : List Char} {sep : Char} (apart : sep ∉ needle)
    (nonempty : needle ≠ []) {before after : List Char} (none : ¬ needle <:+: before)
    (none' : ¬ needle <:+: after) : ¬ needle <:+: before ++ sep :: after := by
  rw [← indexOf?_eq_none_iff, indexOf?_append_cons apart nonempty none,
    indexOf?_eq_none_iff.2 none']
  rfl

/-! ## Blank lines around a block of code -/

/-- Code without a blank line at its start or end, and without a carriage return at the end of a
line. -/
structure CodeBlock (code : List Char) : Prop where
  ends : code ≠ [] →
    (∀ line ∈ (splitAtChar '\n' code).head?, isBlankLine line = false) ∧
      ∀ line ∈ (splitAtChar '\n' code).getLast?, isBlankLine line = false
  returns : ∀ line ∈ splitAtChar '\n' code, '\r' ∉ line.getLast?

instance (code : List Char) : Decidable (CodeBlock code) :=
  decidable_of_iff (_ ∧ _) ⟨fun h => ⟨h.1, h.2⟩, fun h => ⟨h.ends, h.returns⟩⟩

theorem dropReturn_of_not {line : List Char} (none : '\r' ∉ line.getLast?) :
    dropReturn line = line := by
  induction line with
  | nil => rfl
  | cons c line ih =>
    cases line with
    | nil =>
      rw [dropReturn]
      · rfl
      · rintro rfl _
        exact none rfl
    | cons d line =>
      rw [dropReturn]
      · rw [ih (by rwa [List.getLast?_cons_cons] at none)]
      · simp

theorem endings_append_nil (pieces : List (List Char)) :
    lines.endings (pieces ++ [[]]) = pieces.map dropReturn := by
  induction pieces with
  | nil => rfl
  | cons piece pieces ih =>
    rw [List.cons_append, lines.endings, ih, List.map_cons]
    simp

/-- Code on lines of its own is what is left of them. -/
theorem CodeBlock.trimBlankLines {code : List Char} (block : CodeBlock code) :
    trimBlankLines ('\n' :: code ++ ['\n']) = code := by
  by_cases empty : code = []
  · rw [empty]
    decide
  have split : splitAtChar '\n' ('\n' :: code ++ ['\n']) =
      ([] :: splitAtChar '\n' code) ++ [[]] := by
    rw [splitAtChar_append_cons, ← List.nil_append ('\n' :: code), splitAtChar_append_cons]
    rfl
  have kept : lines ('\n' :: code ++ ['\n']) = [] :: splitAtChar '\n' code := by
    rw [lines, split, endings_append_nil, List.map_cons, dropReturn]
    congr 1
    exact (List.map_congr_left fun line mem => dropReturn_of_not (block.returns line mem)).trans
      (List.map_id _)
  obtain ⟨first, last⟩ := block.ends empty
  have start : (splitAtChar '\n' code).dropWhile isBlankLine = splitAtChar '\n' code := by
    cases pieces : splitAtChar '\n' code with
    | nil => rfl
    | cons line pieces =>
      rw [pieces] at first
      exact List.dropWhile_cons_of_neg (by rw [first line rfl]; exact Bool.false_ne_true)
  have stop : (splitAtChar '\n' code).rdropWhile isBlankLine = splitAtChar '\n' code := by
    refine List.rdropWhile_eq_self_iff.2 fun nonempty => ?_
    rw [last _ (List.getLast?_eq_some_getLast nonempty)]
    exact Bool.false_ne_true
  rw [Text.trimBlankLines, kept, List.dropWhile_cons_of_pos rfl, start]
  exact (congrArg (joinWith _) stop).trans (joinWith_splitAtChar _ _)

end SurfaceShading.Text
