/-
  The blocks of a shader by byte offsets: shading models and passes are what the reader of
  characters makes of the same regions.
-/
import SurfaceShading.Proofs.Grammar.Bytewise.Lines

namespace SurfaceShading.Grammar.Bytewise

open Text

section

variable {text : List Char} {stop : Nat} {s : Span}

/-! ## Shading models -/

/-- The value of an assignment, and what follows its semicolon. -/
theorem assigned_eq (region : Region text stop s) {rest : List Char} (chars : s.chars = '=' :: rest) :
    (byteSlice text (offset text s.start + 1) stop : Scan _) = .ok (units rest) ∧
    ((';' ∉ rest ∧ (units rest).findIdx? (· = ';') = none) ∨
      ∃ value behind, rest = value ++ ';' :: behind ∧ ';' ∉ value ∧
        (units rest).findIdx? (· = ';') = some (utf8Length value) ∧
        (slice text (offset text s.start + 1) (offset text s.start + 1 + utf8Length value) : Scan _) =
          .ok value ∧
        Region text stop (s.drop (value.length + 2)) ∧
        offset text (s.drop (value.length + 2)).start =
          offset text s.start + 1 + utf8Length value + 1) := by
  have semicolon := asciiOnly_eq (by decide : ';'.toNat < 128)
  have size : s.size = rest.length + 1 := by rw [Span.size, chars, List.length_cons]
  have first := @Region.offset_prefix _ _ _ region ['='] ⟨rest, chars.symm⟩
  have left := @Region.byteSlice _ _ _ Failure region 1 (by omega)
  rw [utf8Length_ascii (by decide), List.length_singleton] at first
  rw [first, chars, List.drop_succ_cons, List.drop_zero] at left
  refine ⟨left, ?_⟩
  by_cases mem : ';' ∈ rest
  · obtain ⟨value, behind, rfl, none⟩ := List.eq_append_cons_of_mem mem
    rw [List.length_append, List.length_cons] at size
    have last := @Region.offset_prefix _ _ _ region ('=' :: value) ⟨';' :: behind, chars.symm⟩
    have whole := @Region.offset_prefix _ _ _ region ('=' :: value ++ [';']) ⟨behind, by
      rw [chars]
      simp⟩
    have cut := @Region.slice _ _ _ Failure region 1 (value.length + 1) (by omega) (by omega)
    have one : '='.utf8Size = 1 := rfl
    rw [utf8Length_cons, one, ← Nat.add_assoc, List.length_cons] at last
    rw [utf8Length_append, utf8Length_ascii (by decide), utf8Length_cons, one] at whole
    rw [first, last, chars, List.take_succ_cons, List.take_left' rfl, List.drop_succ_cons,
      List.drop_zero] at cut
    refine .inr ⟨value, behind, rfl, none, ?_, cut, (region.drop (by omega)).1, ?_⟩
    · exact semicolon.findIdx?_some (fun c mem => decide_eq_false (ne_of_mem_of_not_mem mem none))
        (decide_eq_true rfl) behind
    · rw [← Nat.add_assoc, ← Nat.add_assoc] at whole
      rw [← whole, List.length_append]
      rfl
  · exact .inl ⟨mem,
      semicolon.findIdx?_none fun c mem' => decide_eq_false (ne_of_mem_of_not_mem mem' mem)⟩

theorem entriesFrom_eq (region : Region text stop s) {rounds : Nat}
    (enough : stop - offset text s.start < rounds) (draft : ModelDraft) :
    entriesFrom text stop rounds draft (offset text s.start) = told text id (readEntries draft s) := by
  induction size : s.size using Nat.strong_induction_on generalizing s rounds draft with
  | _ size ih =>
    subst size
    obtain ⟨rounds, rfl⟩ := Nat.exists_eq_succ_of_ne_zero (Nat.ne_zero_of_lt enough)
    -- From a shorter region on, the rounds that are left are enough.
    have further {t : Span} (region' : Region text stop t) (shorter : t.size < s.size)
        (draft : ModelDraft) : entriesFrom text stop rounds draft (offset text t.start) =
          told text id (readEntries draft t) := by
      obtain ⟨advance, reach⟩ := region.advance region' shorter
      exact ih t.size shorter region' (by omega) draft rfl
    obtain ⟨skipped, region'⟩ := trivia_eq region
    rw [entriesFrom, skipped]
    simp only [bind, Except.bind]
    rw [peek_eq region']
    dsimp only
    cases chars : s.skipTrivia.chars with
    | nil =>
      rw [readEntries_end chars]
      rfl
    | cons c cs =>
      rw [List.head?_cons, Option.map_some]
      dsimp only
      rw [asciiOnly_nameStart.lead c]
      by_cases start : isNameStart c = true
      swap
      · rw [if_neg start, readEntries_other chars (Bool.eq_false_iff.2 start)]
        rfl
      obtain ⟨word, length, region₁⟩ := @word_eq _ _ _ Failure region' _ _ chars start
      obtain ⟨skipped', region₂⟩ := trivia_eq region₁
      have shorter := Span.size_skipTrivia_le
        (s.skipTrivia.drop (c :: cs.takeWhile isNameChar).length)
      rw [if_pos start, word]
      dsimp only
      rw [skipped']
      dsimp only
      generalize behind :
        (s.skipTrivia.drop (c :: cs.takeWhile isNameChar).length).skipTrivia = u at *
      have shorter : u.size < s.size := by
        have smaller := s.size_skipTrivia_le
        rw [Span.size_drop, List.length_cons] at shorter
        rw [List.length_cons] at length
        omega
      rw [peek_eq region₂]
      dsimp only
      split
      · next sign =>
        obtain ⟨rest, sign⟩ := List.head?_eq_some_iff.1 ((head?_lead_iff (by decide) _).1 sign)
        obtain ⟨left, ⟨none, absent⟩ | ⟨value, behind', rfl, none, found, cut, region₃, after⟩⟩ :=
          assigned_eq region₂ sign
        · rw [left, readEntries_noSemicolon chars start behind none sign]
          dsimp only
          rw [absent]
          rfl
        · rw [left, readEntries_assign chars start behind none sign]
          dsimp only
          rw [found]
          dsimp only
          rw [cut]
          dsimp only
          cases draft.assign (String.ofList (c :: cs.takeWhile isNameChar)) (trim value) with
          | error fault => rfl
          | ok draft =>
            dsimp only [Except.mapError]
            rw [← after]
            exact further region₃ (by rw [Span.size_drop]; omega) draft
      · next sign =>
        obtain ⟨rest, sign⟩ := List.head?_eq_some_iff.1 ((head?_lead_iff (by decide) _).1 sign)
        by_cases key : String.ofList (c :: cs.takeWhile isNameChar) = "BRDF"
        · rw [if_pos key, readEntries_code chars start behind sign key, block_eq region₂]
          cases read : u.block with
          | error failure => rfl
          | ok b =>
            obtain ⟨inside, region₃, after⟩ := block_region region₂ read
            obtain ⟨code, -⟩ := lines_eq inside
            dsimp only [told, ends]
            dsimp only [ends] at code after
            rw [code]
            dsimp only
            rw [trimLines_eq, ← after]
            exact further region₃ (Nat.lt_trans b.after.property shorter) _
        · rw [if_neg key, readEntries_noValue chars start behind (by simp [sign]) fun _ => key]
          rfl
      · next noSign noBrace =>
        rw [readEntries_noValue chars start behind]
        · rfl
        · intro head
          rw [head] at noSign
          exact noSign rfl
        · intro head
          rw [head] at noBrace
          exact absurd rfl noBrace

theorem model_eq (region : Region text stop s) :
    model text (offset text s.start) stop = told text id (readModel s) := by
  rw [model, readModel, entriesFrom_eq region (Nat.lt_succ_self _)]
  cases readEntries ⟨none, none, none⟩ s with
  | error failure => rfl
  | ok draft =>
    obtain ⟨id, call, body⟩ := draft
    cases id <;> cases call <;> cases body <;> rfl

/-! ## Passes -/

theorem queue_eq (region : Region text stop s) (position : Nat) :
    queue text stop (offset text position) (offset text s.start) =
      told text (fun found => (found.1, offset text found.2.val.start)) (readQueue position s) := by
  rw [queue, readQueue, quoted_eq region]
  cases s.quoted with
  | error failure => rfl
  | ok found =>
    obtain ⟨content, after⟩ := found
    dsimp only [told, bind, Except.bind]
    cases RenderQueue.ofName? (String.ofList content) with
    | none => rfl
    | some queue => rfl

/-- What follows a queue is a region with the same end. -/
theorem queue_region (region : Region text stop s) {position : Nat} {queue : RenderQueue}
    {after : Shorter s.size} (read : readQueue position s = .ok (queue, after)) :
    Region text stop after.val := by
  rw [readQueue] at read
  cases quoted : s.quoted with
  | error failure =>
    rw [quoted] at read
    cases read
  | ok found =>
    obtain ⟨content, after'⟩ := found
    rw [quoted] at read
    dsimp only [bind, Except.bind] at read
    cases named : RenderQueue.ofName? (String.ofList content) with
    | none =>
      rw [named] at read
      cases read
    | some queue =>
      rw [named] at read
      cases read
      exact quoted_region region quoted

/-- Reading a header follows the scan by byte offsets. -/
theorem header_follows (header : Header) (s : Span) (region : Region text stop s) :
    Follows (headerScanner text stop) text stop id (fun header s => told text id (readHeader header s))
      header s := by
  have rest := next_region region
  unfold Follows
  dsimp only [id_eq]
  rw [readHeader.eq_def header s]
  cases next : s.next with
  | finished => rfl
  | broken failure => rfl
  | string after => rfl
  | other position c after => rfl
  | name position word after =>
    rw [next] at rest
    dsimp only at rest ⊢
    have smaller := after.property
    by_cases isName : word = "Name"
    · subst isName
      have acts : (headerScanner text stop).act header (offset text position) "Name"
          (offset text after.val.start) =
            (quoted text stop (offset text after.val.start) >>= fun found =>
              .ok (.more { header with name := some (String.ofList found.1) } found.2)) := rfl
      rw [acts, quoted_eq rest]
      cases read : after.val.quoted with
      | error failure => exact .inl ⟨_, rfl, rfl⟩
      | ok found =>
        exact .inr (.inr ⟨_, found.2.val, rfl, quoted_region rest read,
          Nat.lt_trans found.2.property smaller, rfl⟩)
    by_cases isQueue : word = "RenderQueue"
    · subst isQueue
      have acts : (headerScanner text stop).act header (offset text position) "RenderQueue"
          (offset text after.val.start) =
            (queue text stop (offset text position) (offset text after.val.start) >>= fun found =>
              .ok (.more { header with queue := some found.1 } found.2)) := rfl
      rw [acts, queue_eq rest]
      cases read : readQueue position after.val with
      | error failure => exact .inl ⟨_, rfl, rfl⟩
      | ok found =>
        exact .inr (.inr ⟨_, found.2.val, rfl, queue_region rest read,
          Nat.lt_trans found.2.property smaller, rfl⟩)
    refine .inr (.inr ⟨header, after.val, ?_, rest, smaller, ?_⟩)
    · unfold headerScanner
      dsimp only
      split
      · exact absurd rfl isName
      · exact absurd rfl isQueue
      · rfl
    · split
      · exact absurd rfl isName
      · exact absurd rfl isQueue
      · rfl

/-- A program is the same whatever the places of its lines are. -/
theorem readProgram_inBytes (lines : List Span) :
    lift (readProgram (lines.map (inBytes text))) = told text id (readProgram lines) := by
  induction lines with
  | nil => rfl
  | cons line lines ih =>
    have same : entryPragma? (inBytes text line).chars = entryPragma? line.chars := rfl
    -- What is made of the lines that follow.
    have further (f : Program → Program) :
        lift (readProgram (lines.map (inBytes text)) >>= fun program => .ok (f program)) =
          told text id (readProgram lines >>= fun program => .ok (f program)) := by
      cases read : readProgram lines with
      | error failure =>
        rw [read] at ih
        cases read' : readProgram (lines.map (inBytes text)) with
        | error failure' =>
          rw [read'] at ih
          exact ih
        | ok program =>
          rw [read'] at ih
          cases ih
      | ok program =>
        rw [read] at ih
        cases read' : readProgram (lines.map (inBytes text)) with
        | error failure' =>
          rw [read'] at ih
          cases ih
        | ok program' =>
          rw [read'] at ih
          cases ih
          rfl
    rw [List.map_cons, readProgram, readProgram, same]
    cases entryPragma? line.chars with
    | none => exact further _
    | some found =>
      obtain ⟨stage, entry⟩ := found
      cases entry with
      | none => rfl
      | some entry => cases stage <;> exact further _

/-- The start of a region is a region, if what follows does not go on with a mark of a
comment. -/
theorem Region.take (region : Region text stop s) {before rest : List Char}
    (chars : s.chars = before ++ rest) (closed : ∀ c ∈ rest.head?, c ≠ '/' ∧ c ≠ '*')
    (nonempty : rest ≠ []) :
    Region text (offset text s.start + utf8Length before) (s.take before.length) := by
  obtain ⟨lead, after, rfl, start, -, -⟩ := region
  have cut : (s.take before.length).chars = before := by
    rw [Span.take, chars, List.take_left' rfl]
  refine ⟨lead, rest ++ after, ?_, start, ?_, ?_⟩
  · rw [cut, chars, List.append_assoc]
  · rw [cut, start, offset_left]
  · rwa [List.head?_append_of_ne_nil _ nonempty]

theorem pass_eq (region : Region text stop s) :
    pass text (offset text s.start) stop = told text id (readPass s) := by
  obtain ⟨whole, -⟩ := lines_eq region
  rw [pass, readPass, whole]
  simp only [bind, Except.bind]
  cases opens : indexOf? programStart s.chars with
  | none =>
    rw [find, opens]
    rfl
  | some i =>
    obtain ⟨before, after, chars, rfl⟩ := indexOf?_eq_some opens
    have begins := region.offset_prefix ⟨_, chars.symm⟩
    have found : find programStart s.chars = some (utf8Length before) := by
      rw [find, opens, Option.map_some, chars, offset_left]
    have behind : (s.drop (before.length + programStart.length)).chars = after := by
      rw [chars_drop, chars, ← List.append_assoc, ← List.length_append, List.drop_left' rfl]
    have code := @Region.offset_prefix _ _ _ region (before ++ programStart) ⟨after, by
      rw [chars, List.append_assoc]⟩
    have tail := @slice_middle Failure (before ++ programStart) after []
    rw [List.append_nil, List.append_assoc, ← chars, ← utf8Length_append, List.append_assoc,
      ← chars, utf8Length_append] at tail
    rw [found]
    dsimp only
    rw [tail, behind]
    dsimp only
    cases closes : indexOf? programEnd after with
    | none =>
      rw [find, closes, ← begins]
      rfl
    | some n =>
      obtain ⟨inside, rest, split, rfl⟩ := indexOf?_eq_some closes
      have ends : find programEnd after = some (utf8Length inside) := by
        rw [find, closes, Option.map_some, split, offset_left]
      have capital : ∀ c ∈ (programStart ++ after).head?, c ≠ '/' ∧ c ≠ '*' := by
        rw [List.head?_append_of_ne_nil _ (by decide)]
        rintro _ ⟨⟩
        exact ⟨by decide, by decide⟩
      have head : (headerScanner text (offset text s.start + utf8Length before)).run text
          (offset text s.start + utf8Length before) ⟨none, none⟩ (offset text s.start) =
            told text id (readHeader ⟨none, none⟩ (s.take before.length)) :=
        Scanner.loop_eq _ header_follows
          (region.take chars capital (List.append_ne_nil_of_left_ne_nil (by decide) _))
          ⟨none, none⟩ (Nat.lt_succ_self _)
      have program := @slice_middle Failure (before ++ programStart) inside (programEnd ++ rest)
      rw [← split, List.append_assoc, ← chars, utf8Length_append] at program
      have cut : ((s.drop (before.length + programStart.length)).take inside.length).chars =
          inside := by
        rw [Span.take, behind, split, List.take_left' rfl]
      have lines : linesAt (offset text s.start + (utf8Length before + utf8Length programStart))
          (splitAtChar '\n' inside) =
            ((s.drop (before.length + programStart.length)).take inside.length).lines.map
              (inBytes text) := by
        have joined : inside <+: text.drop (s.start + (before ++ programStart).length) := by
          obtain ⟨lead, beyond, is, start, -, -⟩ := region
          rw [is, start, ← List.drop_drop, List.drop_left' rfl, chars, ← List.append_assoc before,
            List.append_assoc, List.drop_left' rfl, split, List.append_assoc]
          exact List.prefix_append _ _
        rw [← utf8Length_append, ← code, Span.lines, cut]
        refine (linesAt_eq (by rwa [joinWith_splitAtChar])).trans ?_
        rw [List.length_append]
        rfl
      rw [ends]
      dsimp only
      rw [head]
      cases readHeader ⟨none, none⟩ (s.take before.length) with
      | error failure => rfl
      | ok header =>
        dsimp only [told, id]
        rw [program]
        dsimp only
        rw [lines, readProgram_inBytes]
        cases readProgram
            ((s.drop (before.length + programStart.length)).take inside.length).lines with
        | error failure => rfl
        | ok program =>
          dsimp only [told, id]
          rw [← begins]
          cases vertex : program.vertex with
          | none => rfl
          | some vertex =>
            cases fragment : program.fragment with
            | none => rfl
            | some fragment =>
              dsimp only
              rw [trimLines_eq]

end

end SurfaceShading.Grammar.Bytewise
