/-
  Reading written passes: the header, the lines of the program, and the whole pass.
-/
import SurfaceShading.Proofs.Grammar.Written

namespace SurfaceShading.Grammar

variable {s : Span} {rest : List Char} {p : Pass}

/-! ## The header -/

/-- A header gives its name and its queue. -/
theorem readHeader_written {name : String} (quotable : Quotable name.toList) (queue : RenderQueue)
    (text : s.chars = '\n' :: (writeNamed "Name" name.toList ++ writeQueue queue)) :
    readHeader ⟨none, none⟩ s = .ok ⟨some name, some queue⟩ := by
  obtain ⟨_, behind, after, next, quoted, chars⟩ := next_named (by decide) quotable text
  rw [writeQueue, ← List.append_nil (writeNamed _ _)] at chars
  obtain ⟨_, behind', after', next', quoted', chars'⟩ :=
    next_named (by decide) (quotable_queue queue) chars
  rw [readHeader, next]
  dsimp only
  rw [quoted]
  dsimp only
  rw [String.ofList_toList, readHeader, next']
  dsimp only
  rw [readQueue_ok quoted']
  dsimp only
  rw [readHeader, next_finished chars']
  rfl

/-! ## The program -/

theorem trimmed_pragma (stage : Stage) {entry : List Char} (word : Text.Word entry) :
    Text.Trimmed (writePragma stage entry) := by
  have around := (by decide : Text.Trimmed pragmaMark).around (by decide) word.trimmed word.1
    (' ' :: (ParseCause.pragmaName stage).toList ++ [' '])
  simpa [writePragma] using around

/-- The line of an entry point gives its name. -/
theorem entryPragma?_written (stage : Stage) {entry : String} (word : Text.Word entry.toList) :
    entryPragma? (writePragma stage entry.toList) = some (stage, some entry) := by
  have stageWord : Text.Word (ParseCause.pragmaName stage).toList := by cases stage <;> decide
  have words : Text.words (' ' :: ((ParseCause.pragmaName stage).toList ++ ' ' :: entry.toList)) =
      [(ParseCause.pragmaName stage).toList, entry.toList] := by
    have last := @Text.words_word _ word [] (by simp)
    rw [List.append_nil] at last
    rw [Text.words_blank rfl, Text.words_word stageWord (by rintro _ ⟨⟩; rfl),
      Text.words_blank rfl, last]
    rfl
  rw [entryPragma?, (trimmed_pragma stage word).trim, writePragma, Text.after?_append]
  dsimp only
  rw [words, List.map_cons, List.map_cons, String.ofList_toList, String.ofList_toList]
  cases stage <;> rfl

/-- Any other line is code. -/
theorem entryPragma?_eq_none {line : List Char} (other : ¬ IsEntryPragma line) :
    entryPragma? line = none := by
  unfold entryPragma?
  split
  · rfl
  · next rest behind =>
    have is := Text.after?_eq_some behind
    have unlike (stage : Stage) (names : List String) :
        (Text.words rest).map String.ofList ≠ ParseCause.pragmaName stage :: names := by
      intro same
      refine other ⟨rest, stage, is, ?_⟩
      cases words : Text.words rest with
      | nil => rw [words] at same; cases same
      | cons word words' =>
        rw [words, List.map_cons] at same
        rw [← (List.cons.inj same).1, String.toList_ofList]
        rfl
    split
    · next same => exact absurd same (unlike .vertex _)
    · next same => exact absurd same (unlike .fragment _)
    · rfl

theorem readProgram_kept {lines : List Span} (kept : ∀ line ∈ lines, ¬ IsEntryPragma line.chars) :
    readProgram lines = .ok ⟨none, none, lines.map Span.chars⟩ := by
  induction lines with
  | nil => rfl
  | cons line lines ih =>
    rw [readProgram, entryPragma?_eq_none (kept line List.mem_cons_self),
      ih fun line' mem => kept line' (List.mem_cons_of_mem line mem)]
    rfl

theorem chars_placed (start : Nat) (pieces : List (List Char)) :
    (Span.lines.placed start pieces).map Span.chars = pieces := by
  induction pieces generalizing start with
  | nil => rfl
  | cons piece pieces ih => rw [Span.lines.placed, List.map_cons, ih]

theorem not_pragma_nil : ¬ IsEntryPragma [] := by
  intro is
  obtain ⟨rest, _, same, _⟩ := is
  cases same

/-- The lines of a written program give its entry points and its code. -/
theorem readProgram_written {vertex fragment : String} (word : EntryPoint vertex.toList)
    (word' : EntryPoint fragment.toList) {code : List Char} (is : PassCode code) (start : Nat) :
    readProgram (Span.lines.placed start
      ([] :: writePragma .vertex vertex.toList :: writePragma .fragment fragment.toList ::
        (Text.splitAtChar '\n' code ++ [[]]))) =
      .ok ⟨some vertex, some fragment, [] :: (Text.splitAtChar '\n' code ++ [[]])⟩ := by
  have kept (start : Nat) := @readProgram_kept
    (Span.lines.placed start (Text.splitAtChar '\n' code ++ [[]])) (by
      intro line mem
      have listed : line.chars ∈ (Span.lines.placed _ _).map Span.chars :=
        List.mem_map.2 ⟨line, mem, rfl⟩
      rw [chars_placed, List.mem_append, List.mem_singleton] at listed
      rcases listed with ofCode | empty
      · exact is.pragmas _ ofCode
      · rw [empty]
        exact not_pragma_nil)
  simp only [chars_placed] at kept
  rw [Span.lines.placed, readProgram, entryPragma?_eq_none not_pragma_nil, Span.lines.placed,
    readProgram, entryPragma?_written .vertex word.word, Span.lines.placed, readProgram,
    entryPragma?_written .fragment word'.word, kept]
  rfl

/-! ## The pass -/

/-- A program does not start before its mark. -/
theorem not_start_header (writable : WritablePass p) :
    ¬ programStart <:+: '\n' :: ("Name".toList ++ ' ' :: '"' :: (p.name.toList ++ '"' ::
      '\n' :: ("RenderQueue".toList ++ ' ' :: '"' :: (p.queue.name.toList ++ ['"'])))) := by
  have apart {before after : List Char} :=
    @Text.not_infix_append_cons programStart '"' (by decide) (by decide) before after
  have queue : ¬ programStart <:+: p.queue.name.toList := by
    rw [← Text.indexOf?_eq_none_iff]
    cases p.queue <;> decide
  have closed : ¬ programStart <:+: [] := by decide
  have behind := apart (by decide : ¬ programStart <:+: '\n' :: ("RenderQueue".toList ++ [' ']))
    (apart queue closed)
  have all := apart (by decide : ¬ programStart <:+: '\n' :: ("Name".toList ++ [' ']))
    (apart writable.start behind)
  simpa using all

/-- A program does not end before its mark. -/
theorem not_end_code (writable : WritablePass p) :
    ¬ programEnd <:+: '\n' :: (writePragma .vertex p.vertex.toList ++
      '\n' :: (writePragma .fragment p.fragment.toList ++ '\n' :: p.body.toList)) := by
  have apart (sep : Char) (other : sep ∉ programEnd) {before after : List Char} :=
    @Text.not_infix_append_cons programEnd sep other (by decide) before after
  have pragma (stage : Stage) {entry : List Char} (inside : ¬ programEnd <:+: entry) :
      ¬ programEnd <:+: writePragma stage entry := by
    have name : ¬ programEnd <:+: (ParseCause.pragmaName stage).toList := by
      rw [← Text.indexOf?_eq_none_iff]
      cases stage <;> decide
    have mark : ¬ programEnd <:+: pragmaMark := by decide
    exact apart ' ' (by decide) mark (apart ' ' (by decide) name inside)
  have feed (before : List Char) := @apart '\n' (by decide) before
  exact feed [] (by decide) (feed _ (pragma _ writable.vertex.inside)
    (feed _ (pragma _ writable.fragment.inside) writable.body.inside))

/-- The lines of a program. -/
theorem lines_program (writable : WritablePass p) :
    Text.splitAtChar '\n' ('\n' :: (writePragma .vertex p.vertex.toList ++
      '\n' :: (writePragma .fragment p.fragment.toList ++ '\n' :: (p.body.toList ++ ['\n'])))) =
    [] :: writePragma .vertex p.vertex.toList :: writePragma .fragment p.fragment.toList ::
      (Text.splitAtChar '\n' p.body.toList ++ [[]]) := by
  have line (stage : Stage) {entry : List Char} (word : Text.Word entry) :
      '\n' ∉ writePragma stage entry := by
    have name : '\n' ∉ (ParseCause.pragmaName stage).toList := by cases stage <;> decide
    have mark : '\n' ∉ pragmaMark := by decide
    have solid : '\n' ∉ entry := fun mem => by cases word.2 _ mem
    simp [writePragma, name, mark, solid]
  rw [← List.nil_append ('\n' :: _), Text.splitAtChar_line List.not_mem_nil,
    Text.splitAtChar_line (line _ writable.vertex.word),
    Text.splitAtChar_line (line _ writable.fragment.word), Text.splitAtChar_append_cons]
  rfl

/-- The inside of a written block reads as the pass. -/
theorem readPass_written (writable : WritablePass p) (text : s.chars = '\n' :: writePass p) :
    readPass s = .ok ⟨⟨some p.name, some p.queue⟩, p.vertex, p.fragment, p.body⟩ := by
  have start := not_start_header writable
  have code := not_end_code writable
  have lines := lines_program writable
  have kept := writable.body.block.trimBlankLines
  generalize headed : '\n' :: ("Name".toList ++ _) = header at start
  generalize coded : '\n' :: (writePragma .vertex p.vertex.toList ++
    '\n' :: (writePragma .fragment p.fragment.toList ++ '\n' :: p.body.toList)) = program at code
  have parts : s.chars = (header ++ ['\n']) ++ (programStart ++
      ((program ++ ['\n']) ++ (programEnd ++ ['\n']))) := by
    rw [text, ← headed, ← coded]
    simp [writePass, writeQueue, writeNamed]
  have tail : (s.drop ((header ++ ['\n']).length + programStart.length)).chars =
      (program ++ ['\n']) ++ (programEnd ++ ['\n']) := by
    rw [chars_drop, parts, ← List.drop_drop, List.drop_left' rfl, List.drop_left' rfl]
  have head := @readHeader_written (s.take (header ++ ['\n']).length) p.name writable.name p.queue
    (by
      show List.take _ s.chars = _
      rw [parts, List.take_left' rfl, ← headed]
      simp [writeQueue, writeNamed])
  have body : ((s.drop ((header ++ ['\n']).length + programStart.length)).take
      (program ++ ['\n']).length).lines = Span.lines.placed
        (s.drop ((header ++ ['\n']).length + programStart.length)).start
        ([] :: writePragma .vertex p.vertex.toList :: writePragma .fragment p.fragment.toList ::
          (Text.splitAtChar '\n' p.body.toList ++ [[]])) := by
    show Span.lines.placed _ (Text.splitAtChar '\n' (List.take _ _)) = _
    rw [tail, List.take_left' rfl, ← lines, ← coded]
    simp [Span.take]
  have joined : Text.joinWith ['\n'] ([] :: (Text.splitAtChar '\n' p.body.toList ++ [[]])) =
      '\n' :: p.body.toList ++ ['\n'] := by
    rw [← Text.joinWith_splitAtChar '\n' ('\n' :: p.body.toList ++ ['\n']),
      Text.splitAtChar_append_cons, ← List.nil_append ('\n' :: p.body.toList),
      Text.splitAtChar_append_cons]
    rfl
  rw [readPass, parts, Text.indexOf?_behind (by decide) (by decide) start]
  dsimp only
  rw [tail, Text.indexOf?_behind (by decide) (by decide) code]
  dsimp only
  rw [head, body, readProgram_written writable.vertex writable.fragment writable.body]
  show Except.ok (PassDraft.mk _ _ _ (String.ofList (Text.trimBlankLines _))) = _
  rw [joined, kept, String.ofList_toList]

end SurfaceShading.Grammar
