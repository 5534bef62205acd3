/-
  The native code of a pass. Of its lines those that name an entry point are taken out, and so are
  the blank lines around the others. The lines that are left are those of the code in their order,
  with two exceptions (`kept_iff`): a line `#pragmavertex` is taken for an entry point although
  no blank is behind the mark, and a carriage return stays where the line that it ends becomes
  the last one because the lines behind it are taken out.
-/
import SurfaceShading.Proofs.Grammar.Written.Passes
import SurfaceShading.Proofs.Outcome
import SurfaceShading.Proofs.Text.Lines

namespace SurfaceShading.Grammar

/-! ## Lines that name an entry point -/

/-- A line with the words `#pragma vertex` or `#pragma fragment` first. -/
def IsEntryLine (line : List Char) : Prop :=
  ∃ stage more, Text.words line = pragmaMark :: (ParseCause.pragmaName stage).toList :: more

/-- A line with these two words first, but no blank between them. -/
def IsGluedLine (line : List Char) : Prop :=
  ∃ stage more, Text.words line = (pragmaMark ++ (ParseCause.pragmaName stage).toList) :: more

instance (line : List Char) : Decidable (IsEntryLine line) :=
  decidable_of_iff (∃ stage ∈ [Stage.vertex, .fragment],
      (Text.words line).take 2 = [pragmaMark, (ParseCause.pragmaName stage).toList])
    (by
      constructor
      · rintro ⟨stage, -, first⟩
        refine ⟨stage, (Text.words line).drop 2, ?_⟩
        conv_lhs => rw [← List.take_append_drop 2 (Text.words line), first]
        rfl
      · rintro ⟨stage, more, words⟩
        exact ⟨stage, by cases stage <;> decide, by rw [words]; rfl⟩)

theorem word_pragmaName (stage : Stage) : Text.Word (ParseCause.pragmaName stage).toList := by
  cases stage <;> decide

theorem word_pragmaMark : Text.Word pragmaMark := by decide

/-- The reader takes both for entry points. -/
theorem isEntryPragma_iff {line : List Char} :
    IsEntryPragma line ↔ IsEntryLine line ∨ IsGluedLine line := by
  constructor
  · rintro ⟨rest, stage, trimmed, first⟩
    obtain ⟨more, words⟩ := List.head?_eq_some_iff.1 first
    have all : Text.words line = Text.words (pragmaMark ++ rest) := by
      rw [← trimmed, Text.words_trim]
    cases rest with
    | nil => cases words
    | cons c rest =>
      by_cases blank : Text.isBlank c = true
      · refine .inl ⟨stage, more, ?_⟩
        rw [all, Text.words_word word_pragmaMark (by rintro _ ⟨⟩; exact blank), words]
      · obtain ⟨word, behind, split, isWord, stop⟩ :=
          @Text.exists_word c rest (Bool.eq_false_iff.2 blank)
        rw [split, Text.words_word isWord stop] at words
        obtain ⟨rfl, rfl⟩ := List.cons.inj words
        refine .inr ⟨stage, Text.words behind, ?_⟩
        rw [all, split, ← List.append_assoc, Text.words_word ?_ stop]
        refine ⟨by simp [word_pragmaMark.1], fun d mem => ?_⟩
        exact (List.mem_append.1 mem).elim (word_pragmaMark.2 d) (isWord.2 d)
  · -- A trimmed line begins with its first word.
    have first {word : List Char} {more : List (List Char)}
        (words : Text.words line = word :: more) : ∃ rest, Text.trim line = word ++ rest ∧
          Text.words rest = more ∧ ∀ d ∈ rest.head?, Text.isBlank d = true := by
      rw [← Text.words_trim] at words
      cases trimmed : Text.trim line with
      | nil =>
        rw [trimmed] at words
        cases words
      | cons c cs =>
        have solid := (Text.trimmed_trim line).1 c (by rw [trimmed]; rfl)
        obtain ⟨word', rest, split, isWord, stop⟩ := @Text.exists_word c cs solid
        rw [trimmed, split, Text.words_word isWord stop] at words
        obtain ⟨rfl, rfl⟩ := List.cons.inj words
        exact ⟨rest, split, rfl, stop⟩
    rintro (⟨stage, more, words⟩ | ⟨stage, more, words⟩)
    · obtain ⟨rest, trimmed, words', -⟩ := first words
      exact ⟨rest, stage, trimmed, by rw [words']; rfl⟩
    · obtain ⟨rest, trimmed, -, stop⟩ := first words
      refine ⟨_, stage, trimmed.trans (List.append_assoc _ _ _), ?_⟩
      rw [Text.words_word (word_pragmaName stage) stop]
      rfl

theorem entryPragma?_eq_none_iff {line : List Char} :
    entryPragma? line = none ↔ ¬ IsEntryPragma line := by
  refine ⟨fun none is => ?_, entryPragma?_eq_none⟩
  obtain ⟨rest, stage, trimmed, first⟩ := is
  obtain ⟨more, words⟩ := List.head?_eq_some_iff.1 first
  rw [entryPragma?, trimmed, Text.after?_append] at none
  dsimp only at none
  rw [words, List.map_cons, String.ofList_toList] at none
  cases stage <;> cases none

/-- The name of an entry point is a word. -/
theorem word_entry {line : List Char} {stage : Stage} {entry : String}
    (is : entryPragma? line = some (stage, some entry)) : Text.Word entry.toList := by
  have named {rest : List Char} {name : String} {names : List String}
      (words : (Text.words rest).map String.ofList = name :: names)
      (first : names.head? = some entry) : Text.Word entry.toList := by
    have mem : entry ∈ (Text.words rest).map String.ofList := by
      rw [words]
      exact List.mem_cons_of_mem _ (List.mem_of_mem_head? first)
    obtain ⟨word, inside, rfl⟩ := List.mem_map.1 mem
    rw [String.toList_ofList]
    exact Text.word_of_mem_words inside
  unfold entryPragma? at is
  split at is
  · cases is
  · split at is
    · next words => exact named words (Prod.mk.inj (Option.some.inj is)).2
    · next words => exact named words (Prod.mk.inj (Option.some.inj is)).2
    · cases is

theorem words_dropReturn (line : List Char) :
    Text.words (Text.dropReturn line) = Text.words line := by
  rcases Text.dropReturn_cases line with same | more
  · rw [same]
  · have blank : ∀ c ∈ ['\r'], Text.isBlank c = true := List.forall_mem_singleton.2 (by decide)
    conv_rhs => rw [more, Text.words_append_blanks _ blank]

theorem isEntryLine_dropReturn {line : List Char} :
    IsEntryLine (Text.dropReturn line) ↔ IsEntryLine line := by
  rw [IsEntryLine, IsEntryLine, words_dropReturn]

theorem isGluedLine_dropReturn {line : List Char} :
    IsGluedLine (Text.dropReturn line) ↔ IsGluedLine line := by
  rw [IsGluedLine, IsGluedLine, words_dropReturn]

theorem IsGluedLine.not_entry {line : List Char} (glued : IsGluedLine line) :
    ¬ IsEntryLine line := by
  rintro ⟨stage, more, words⟩
  obtain ⟨stage', more', words'⟩ := glued
  have same := (List.cons.inj (words.symm.trans words')).1
  have none : (ParseCause.pragmaName stage').toList = [] := by simpa using same
  exact (word_pragmaName stage').1 none

/-! ## The lines that are kept -/

/-- The code of a program: its lines without those that name an entry point and without the blank
lines around the others. A carriage return before a line feed is not part of a line. -/
def codeLines (code : List Char) : List (List Char) :=
  Text.withoutBlankEnds ((Text.lines code).filter (¬ IsEntryLine ·))

/-- Behind a line that holds something and ends with a carriage return the program has nothing
but entry points, the last without a line feed behind it. -/
def StrayReturn (code : List Char) : Prop :=
  ∃ before line entries, Text.splitAtChar '\n' code = before ++ (line ++ ['\r']) :: entries ∧
    entries ≠ [] ∧ (∀ entry ∈ entries, IsEntryLine entry) ∧
    ¬ IsEntryLine line ∧ Text.isBlankLine line = false

theorem isEntryPragma_of_some {line : List Char} {found : Stage × Option String}
    (is : entryPragma? line = some found) : IsEntryPragma line :=
  not_not.1 (mt entryPragma?_eq_none_iff.2 (by simp [is]))

/-- What is read of the lines of a program. -/
theorem readProgram_ok {lines : List Span} {program : Program}
    (read : readProgram lines = .ok program) :
    program.kept = (lines.map Span.chars).filter (¬ IsEntryPragma ·) ∧
      (∀ entry ∈ program.vertex, Text.Word entry.toList) ∧
      ∀ entry ∈ program.fragment, Text.Word entry.toList := by
  have either {found entry : String} {later : Option String}
      (mem : found ∈ (later <|> some entry)) : found ∈ later ∨ found = entry := by
    cases later with
    | none => exact .inr (Option.some.inj mem).symm
    | some => exact .inl mem
  induction lines generalizing program with
  | nil =>
    cases read
    exact ⟨rfl, by simp, by simp⟩
  | cons line lines ih =>
    rw [readProgram] at read
    rw [List.map_cons]
    split at read
    · next none =>
      obtain ⟨rest, read', is⟩ := except_bind_eq_ok.1 read
      cases is
      obtain ⟨kept, vertex, fragment⟩ := ih read'
      refine ⟨?_, vertex, fragment⟩
      rw [List.filter_cons_of_pos (by simpa using entryPragma?_eq_none_iff.1 none), ← kept]
    · cases read
    · next entry named =>
      obtain ⟨rest, read', is⟩ := except_bind_eq_ok.1 read
      cases is
      obtain ⟨kept, vertex, fragment⟩ := ih read'
      refine ⟨?_, fun found mem => ?_, fragment⟩
      · rw [List.filter_cons_of_neg (by simpa using isEntryPragma_of_some named), ← kept]
      · exact (either mem).elim (vertex found) (· ▸ word_entry named)
    · next entry named =>
      obtain ⟨rest, read', is⟩ := except_bind_eq_ok.1 read
      cases is
      obtain ⟨kept, vertex, fragment⟩ := ih read'
      refine ⟨?_, vertex, fun found mem => ?_⟩
      · rw [List.filter_cons_of_neg (by simpa using isEntryPragma_of_some named), ← kept]
      · exact (either mem).elim (fragment found) (· ▸ word_entry named)

section

variable {pieces : List (List Char)}

theorem filter_dropReturn (pieces : List (List Char)) :
    (pieces.map Text.dropReturn).filter (¬ IsEntryLine ·) =
      (pieces.filter (¬ IsEntryLine ·)).map Text.dropReturn := by
  rw [List.filter_map]
  congr 1
  refine List.filter_congr fun piece _ => ?_
  simp only [Function.comp_apply, isEntryLine_dropReturn]

/-- Without a line that the reader takes for an entry point by mistake it keeps the others. -/
theorem filter_unglued (unglued : ∀ piece ∈ pieces, ¬ IsGluedLine piece) :
    pieces.filter (¬ IsEntryPragma ·) = pieces.filter (¬ IsEntryLine ·) := by
  refine List.filter_congr fun piece mem => ?_
  simp only [isEntryPragma_iff, unglued piece mem, or_false]

theorem not_glued_nil : ¬ IsGluedLine [] := by
  rintro ⟨stage, more, words⟩
  cases words

theorem unglued_iff : (∀ line ∈ Text.lines.endings pieces, ¬ IsGluedLine line) ↔
    ∀ piece ∈ pieces, ¬ IsGluedLine piece := by
  constructor
  · intro unglued piece mem
    cases pieces using List.reverseRecOn with
    | nil => cases mem
    | append_singleton pieces last =>
      rw [Text.endings_append] at unglued
      rcases List.mem_append.1 mem with ended | is
      · rw [← isGluedLine_dropReturn]
        exact unglued _ (List.mem_append_left _ (List.mem_map.2 ⟨piece, ended, rfl⟩))
      · rw [List.mem_singleton.1 is]
        by_cases empty : last.isEmpty = true
        · rw [List.isEmpty_iff.1 empty]
          exact not_glued_nil
        · refine unglued last (List.mem_append_right _ ?_)
          rw [if_neg empty]
          exact List.mem_singleton_self last
  · intro unglued line mem
    obtain ⟨piece, inside, rfl | rfl⟩ := Text.mem_endings mem
    · exact unglued _ inside
    · rw [isGluedLine_dropReturn]
      exact unglued _ inside

theorem isBlankLine_of_entry {line : List Char} (named : IsEntryLine line ∨ IsGluedLine line) :
    Text.isBlankLine line = false := by
  refine Bool.eq_false_iff.2 fun blank => ?_
  have none : Text.words line = [] := by
    have blanks : ∀ c ∈ line, Text.isBlank c = true := by simpa [Text.isBlankLine] using blank
    exact Text.words_append_blanks [] blanks
  rcases named with ⟨_, _, words⟩ | ⟨_, _, words⟩ <;> (rw [none] at words; cases words)

/-- Before a last line that is an entry point the others were ended. -/
theorem clean_entry {last : List Char} (entry : IsEntryLine last) :
    (Text.lines.endings (pieces ++ [last])).filter (¬ IsEntryLine ·) =
      (pieces.filter (¬ IsEntryLine ·)).map Text.dropReturn := by
  have out : (if last.isEmpty then [] else [last]).filter (¬ IsEntryLine ·) = [] := by
    split
    · rfl
    · simp [entry]
  rw [Text.endings_append, List.filter_append, filter_dropReturn, out, List.append_nil]

/-- A line feed is taken from the last line that is kept, and the carriage return before it stays
if it is there and the line is not blank. -/
theorem withoutBlankEnds_endings (unstray : ∀ before line, pieces = before ++ [line ++ ['\r']] →
      Text.isBlankLine line = true) :
    Text.withoutBlankEnds (Text.lines.endings pieces) =
      Text.withoutBlankEnds (pieces.map Text.dropReturn) := by
  cases pieces using List.reverseRecOn with
  | nil => rfl
  | append_singleton pieces last =>
    rw [Text.endings_append, List.map_append, List.map_singleton]
    by_cases blank : Text.isBlankLine last = true
    · have blank' : Text.isBlankLine (Text.dropReturn last) = true := by
        rwa [Text.isBlankLine_dropReturn]
      rw [Text.withoutBlankEnds_blank blank']
      split
      · rw [List.append_nil]
      · exact Text.withoutBlankEnds_blank blank
    · have some : ¬ last.isEmpty = true := fun empty => by
        rw [List.isEmpty_iff.1 empty] at blank
        exact blank rfl
      rw [if_neg some]
      rcases Text.dropReturn_cases last with same | more
      · rw [same]
      · refine absurd ?_ blank
        rw [← Text.isBlankLine_dropReturn]
        exact unstray pieces _ (congrArg (pieces ++ [·]) more)

end

/-- The lines of the code that the reader keeps. -/
def keptLines (code : List Char) : List (List Char) :=
  Text.withoutBlankEnds
    (Text.lines.endings ((Text.splitAtChar '\n' code).filter (¬ IsEntryPragma ·)))

theorem kept_iff (code : List Char) : keptLines code = codeLines code ↔
    (∀ line ∈ Text.lines code, ¬ IsGluedLine line) ∧ ¬ StrayReturn code := by
  unfold keptLines codeLines StrayReturn Text.lines
  rw [unglued_iff]
  generalize Text.splitAtChar '\n' code = pieces
  constructor
  · intro same
    have unglued : ∀ piece ∈ pieces, ¬ IsGluedLine piece := by
      refine unglued_iff.1 fun line mem glued => ?_
      have listed : line ∈ Text.withoutBlankEnds
          ((Text.lines.endings pieces).filter (¬ IsEntryLine ·)) :=
        Text.mem_withoutBlankEnds (List.mem_filter.2 ⟨mem, by simpa using glued.not_entry⟩)
          (isBlankLine_of_entry (.inr glued))
      rw [← same] at listed
      obtain ⟨piece, inside, is⟩ := Text.mem_endings (Text.mem_of_withoutBlankEnds listed)
      have other : ¬ IsEntryPragma piece := by simpa using (List.mem_filter.1 inside).2
      refine other (isEntryPragma_iff.2 (.inr ?_))
      rcases is with rfl | rfl
      · exact glued
      · exact isGluedLine_dropReturn.1 glued
    refine ⟨unglued, ?_⟩
    rintro ⟨before, line, entries, rfl, more, all, other, solid⟩
    obtain ⟨entries, last, rfl⟩ := (List.eq_nil_or_concat' entries).resolve_left more
    have other' : ¬ IsEntryLine (line ++ ['\r']) := by
      rwa [← isEntryLine_dropReturn, Text.dropReturn_append]
    have front : (before ++ (line ++ ['\r']) :: entries).filter (¬ IsEntryLine ·) =
        before.filter (¬ IsEntryLine ·) ++ [line ++ ['\r']] := by
      have none : entries.filter (¬ IsEntryLine ·) = [] :=
        List.filter_eq_nil_iff.2 fun entry mem => by simp [all entry (by simp [mem])]
      rw [List.filter_append, List.filter_cons_of_pos (by simpa using other'), none]
    have split : before ++ (line ++ ['\r']) :: (entries ++ [last]) =
        (before ++ (line ++ ['\r']) :: entries) ++ [last] := by simp
    have entry := all last (by simp)
    -- The line has its carriage return in what is read, and has lost it in the code.
    rw [filter_unglued unglued, split, clean_entry entry, List.filter_append, front,
      List.filter_cons_of_neg (by simpa using entry), List.filter_nil, List.append_nil,
      Text.endings_append, if_neg (by simp), List.map_append, List.map_singleton,
      Text.dropReturn_append] at same
    have solid' : Text.isBlankLine (line ++ ['\r']) = false := by
      rwa [← Text.isBlankLine_dropReturn, Text.dropReturn_append]
    obtain ⟨read, is⟩ := @Text.withoutBlankEnds_solid _ _ solid'
    obtain ⟨clean, is'⟩ := @Text.withoutBlankEnds_solid _ _ solid
    rw [is, is'] at same
    have last := (List.append_inj' same rfl).2
    simp at last
  · rintro ⟨unglued, unstray⟩
    rw [filter_unglued unglued]
    cases pieces using List.reverseRecOn with
    | nil => rfl
    | append_singleton pieces last =>
      by_cases entry : IsEntryLine last
      · rw [clean_entry entry, List.filter_append, List.filter_cons_of_neg (by simpa using entry),
          List.filter_nil, List.append_nil]
        refine withoutBlankEnds_endings fun before line is => ?_
        obtain ⟨first, rest, rfl, -, is⟩ := List.filter_eq_append_iff.1 is
        obtain ⟨middle, entries, rfl, -, other, none⟩ := List.filter_eq_cons_iff.1 is
        by_contra solid
        refine unstray ⟨first ++ middle, line, entries ++ [last], by simp, by simp, ?_, ?_, ?_⟩
        · intro found mem
          rcases List.mem_append.1 mem with inside | here
          · simpa using List.filter_eq_nil_iff.1 none found inside
          · rwa [List.mem_singleton.1 here]
        · rw [← Text.dropReturn_append line, isEntryLine_dropReturn]
          simpa using other
        · exact Bool.eq_false_iff.2 solid
      · have kept : (if last.isEmpty then [] else [last]).filter (¬ IsEntryLine ·) =
            if last.isEmpty then [] else [last] := by
          split
          · rfl
          · simp [entry]
        rw [List.filter_append, List.filter_cons_of_pos (by simpa using entry), List.filter_nil,
          Text.endings_append, Text.endings_append, List.filter_append, filter_dropReturn, kept]

/-! ## The body of a pass -/

/-- What is kept of a program, as it is joined again. -/
def programBody (code : List Char) : List Char :=
  Text.trimBlankLines (Text.joinWith ['\n']
    ((Text.splitAtChar '\n' code).filter (¬ IsEntryPragma ·)))

section

variable {code line : List Char}

theorem programBody_eq (code : List Char) :
    programBody code = Text.joinWith ['\n'] (keptLines code) := by
  rw [programBody, Text.trimBlankLines_eq, Text.lines_joinWith]
  · rfl
  · exact fun piece mem => Text.not_mem_of_mem_splitAtChar (List.mem_filter.1 mem).1

/-- A line that is kept begins a piece of the code and names no entry point. -/
theorem exists_piece (mem : line ∈ keptLines code) :
    ∃ piece ∈ Text.splitAtChar '\n' code, line <+: piece ∧ ¬ IsEntryLine line := by
  obtain ⟨piece, inside, is⟩ := Text.mem_endings (Text.mem_of_withoutBlankEnds mem)
  obtain ⟨listed, other⟩ := List.mem_filter.1 inside
  have noEntry : ¬ IsEntryLine piece := fun entry =>
    of_decide_eq_true other (isEntryPragma_iff.2 (.inl entry))
  rcases is with rfl | rfl
  · exact ⟨_, listed, List.prefix_refl _, noEntry⟩
  · exact ⟨piece, listed, Text.dropReturn_prefix piece, mt isEntryLine_dropReturn.1 noEntry⟩

theorem not_mem_keptLine (mem : line ∈ keptLines code) : '\n' ∉ line := by
  obtain ⟨piece, listed, first, -⟩ := exists_piece mem
  exact mt (first.subset ·) (Text.not_mem_of_mem_splitAtChar listed)

theorem not_mem_codeLine (mem : line ∈ codeLines code) : '\n' ∉ line := by
  have listed := (List.mem_filter.1 (Text.mem_of_withoutBlankEnds mem)).1
  obtain ⟨piece, inside, is⟩ := Text.mem_endings listed
  have none := Text.not_mem_of_mem_splitAtChar inside
  rcases is with rfl | rfl
  · exact none
  · exact mt ((Text.dropReturn_prefix piece).subset ·) none

/-- When the body is the code without its entry points and the blank lines around it. -/
theorem programBody_eq_iff : programBody code = Text.joinWith ['\n'] (codeLines code) ↔
    (∀ line ∈ Text.lines code, ¬ IsGluedLine line) ∧ ¬ StrayReturn code := by
  rw [← kept_iff, programBody_eq]
  refine ⟨fun same => ?_, congrArg _⟩
  exact Text.joinWith_inj (fun _ => not_mem_keptLine) (fun _ => not_mem_codeLine)
    (Text.withoutBlankEnds_ne _) (Text.withoutBlankEnds_ne _) same

/-- No mark comes about by taking lines out. -/
theorem not_infix_programBody {mark : List Char} (apart : '\n' ∉ mark) (nonempty : mark ≠ [])
    (none : ¬ mark <:+: code) : ¬ mark <:+: programBody code := by
  rw [programBody_eq]
  intro is
  obtain ⟨line, mem, inside⟩ := Text.exists_infix_of_joinWith apart nonempty is
  obtain ⟨piece, listed, first, -⟩ := exists_piece mem
  have whole := @Text.infix_joinWith ['\n'] _ _ listed
  rw [Text.joinWith_splitAtChar] at whole
  exact none (inside.trans (first.isInfix.trans whole))

theorem not_entry_programBody (mem : line ∈ Text.splitAtChar '\n' (programBody code)) :
    ¬ IsEntryLine line := by
  rw [programBody_eq] at mem
  by_cases none : keptLines code = []
  · rw [none] at mem
    rw [List.mem_singleton.1 mem]
    decide
  · rw [Text.splitAtChar_joinWith none fun _ => not_mem_keptLine] at mem
    obtain ⟨_, _, _, other⟩ := exists_piece mem
    exact other

end

/-- The native code in the block of a pass: what stands between the first mark of its start and
the next one of its end. -/
def programOf? (block : List Char) : Option (List Char) :=
  (Text.indexOf? programStart block).bind fun start =>
    (Text.indexOf? programEnd (block.drop (start + programStart.length))).map
      (block.drop (start + programStart.length)).take

theorem not_infix_program {block code : List Char} (is : programOf? block = some code) :
    ¬ programEnd <:+: code := by
  obtain ⟨start, -, is⟩ := Option.bind_eq_some_iff.1 is
  obtain ⟨length, found, rfl⟩ := Option.map_eq_some_iff.1 is
  exact Text.not_infix_take (by decide) found

/-- What is read of a pass. -/
theorem readPass_ok {block : Span} {draft : PassDraft} (read : readPass block = .ok draft) :
    Text.Word draft.vertex.toList ∧ Text.Word draft.fragment.toList ∧
      ∃ code, programOf? block.chars = some code ∧
        draft.body = String.ofList (programBody code) := by
  unfold readPass at read
  split at read
  · cases read
  · next start found =>
    dsimp only at read
    split at read
    · cases read
    · next length found' =>
      obtain ⟨header, -, read⟩ := except_bind_eq_ok.1 read
      obtain ⟨program, lines, read⟩ := except_bind_eq_ok.1 read
      obtain ⟨kept, vertex, fragment⟩ := readProgram_ok lines
      split at read
      · cases read
      · cases read
      · next vertexIs fragmentIs =>
        cases read
        have pieces :
            ((block.drop (start + programStart.length)).take length).lines.map Span.chars =
              Text.splitAtChar '\n' ((block.chars.drop (start + programStart.length)).take length) :=
          chars_placed _ _
        refine ⟨vertex _ vertexIs, fragment _ fragmentIs,
          (block.chars.drop (start + programStart.length)).take length, ?_, ?_⟩
        · rw [programOf?, found, Option.bind_some, ← chars_drop, found']
          rfl
        · rw [kept, pieces]
          rfl

end SurfaceShading.Grammar
