/-
  Reading the text of a shader by byte offsets never faults: it gives what the reader of
  characters gives, and each error has the line of a place in the text.
-/
import SurfaceShading.Proofs.Grammar.Bytewise.Blocks

namespace SurfaceShading.Grammar.Bytewise

open Text

section

variable {text : List Char} {stop : Nat}

/-! ## The keyword of a shader -/

/-- What is found behind the keyword, with an offset for the place behind it. -/
theorem shader_follows (s : Span) (region : Region text (utf8Length text) s) :
    Follows (shaderScanner text) text (utf8Length text) id
      (fun _ s => told text (fun found => (found.1, offset text found.2.start)) (findShader s)) () s := by
  have rest := next_region region
  unfold Follows
  dsimp only [id_eq]
  rw [findShader.eq_def s]
  cases next : s.next with
  | finished =>
    show fail (offset text (s.start + s.size)) .missingShader = fail (utf8Length text) .missingShader
    rw [← region.stop_eq]
  | broken failure => rfl
  | string after => rfl
  | other position c after => rfl
  | name position word after =>
    rw [next] at rest
    dsimp only at rest ⊢
    by_cases keyword : word = "Shader"
    · rw [if_pos keyword]
      have acts : (shaderScanner text).act () (offset text position) word
          (offset text after.val.start) =
            (quoted text (utf8Length text) (offset text after.val.start) >>= fun found =>
              .ok (.done found)) := if_pos keyword
      rw [acts, quoted_eq rest]
      cases read : after.val.quoted with
      | error failure => exact .inl ⟨_, rfl, rfl⟩
      | ok found => exact .inr (.inl ⟨_, rfl, rfl⟩)
    · rw [if_neg keyword]
      exact .inr (.inr ⟨(), after.val, if_neg keyword, rest, after.property, rfl⟩)

/-- What follows the name of a shader is a region with the same end. -/
theorem shader_region {s : Span} (region : Region text stop s) {name : List Char} {rest : Span}
    (read : findShader s = .ok (name, rest)) : Region text stop rest := by
  induction size : s.size using Nat.strong_induction_on generalizing s with
  | _ size ih =>
    subst size
    have behind := next_region region
    rw [findShader] at read
    cases next : s.next with
    | finished =>
      rw [next] at read
      cases read
    | broken failure =>
      rw [next] at read
      cases read
    | string after =>
      rw [next] at read behind
      exact ih _ after.property behind read rfl
    | other position c after =>
      rw [next] at read behind
      obtain ⟨t, cs, -, -, -, -, -, region'⟩ := behind
      exact ih _ after.property region' read rfl
    | name position word after =>
      rw [next] at read behind
      dsimp only at read behind
      by_cases keyword : word = "Shader"
      · rw [if_pos keyword] at read
        cases quoted : after.val.quoted with
        | error failure =>
          rw [quoted] at read
          cases read
        | ok found =>
          rw [quoted] at read
          cases read
          exact quoted_region behind quoted
      · rw [if_neg keyword] at read
        exact ih _ after.property behind read rfl

/-! ## The block of a shader -/

/-- A failure with the offset of its place. -/
def failureInBytes (text : List Char) (failure : Failure) : Failure :=
  ⟨offset text failure.position, failure.cause⟩

/-- A draft with the offsets of the places of what was dropped. -/
def draftInBytes (text : List Char) (draft : Draft) : Draft :=
  { draft with dropped := draft.dropped.map (failureInBytes text) }

/-- What is read of a block, with offsets for places. -/
def bodyTold (text : List Char) (draft : Draft) (s : Span) : Except (Stop (Draft × Failure)) Draft :=
  match (readBody draft s).2 with
  | none => .ok (draftInBytes text (readBody draft s).1)
  | some failure =>
    .error (.failure (draftInBytes text (readBody draft s).1, failureInBytes text failure))

/-- A name that is no keyword is passed over. -/
theorem readBody_other {draft : Draft} {s : Span} {position : Nat} {word : String}
    {after : Shorter s.size} (next : s.next = .name position word after)
    (other : word ∉ ["RenderQueue", "Properties", "ShadingModel", "Pass"]) :
    readBody draft s = readBody draft after.val := by
  rw [readBody.eq_def, next]
  dsimp only
  split
  · exact absurd (by simp) other
  · exact absurd (by simp) other
  · exact absurd (by simp) other
  · exact absurd (by simp) other
  · rfl

/-- What the scan does at a name is what reading the block makes of it. -/
def Acts (text : List Char) (stop : Nat) (draft : Draft) (s : Span)
    (answer : Except (Stop (Draft × Failure)) (Move Draft Draft)) : Prop :=
  (∃ stopped, answer = .error stopped ∧ bodyTold text draft s = .error stopped) ∨
  (∃ result, answer = .ok (.done result) ∧ bodyTold text draft s = .ok result) ∨
  ∃ draft' t, answer = .ok (.more (draftInBytes text draft') (offset text t.start)) ∧
    Region text stop t ∧ t.size < s.size ∧ bodyTold text draft s = bodyTold text draft' t

section

variable {draft : Draft} {s : Span} {position : Nat} {after : Shorter s.size}

theorem acts_other {word : String} (next : s.next = .name position word after)
    (other : word ∉ ["RenderQueue", "Properties", "ShadingModel", "Pass"])
    (rest : Region text stop after.val) :
    Acts text stop draft s ((bodyScanner text stop).act (draftInBytes text draft)
      (offset text position) word (offset text after.val.start)) := by
  refine .inr (.inr ⟨draft, after.val, ?_, rest, after.property, ?_⟩)
  · unfold bodyScanner
    dsimp only
    split
    · exact absurd (by simp) other
    · exact absurd (by simp) other
    · exact absurd (by simp) other
    · exact absurd (by simp) other
    · rfl
  · rw [bodyTold, bodyTold, readBody_other next other]

theorem acts_queue (next : s.next = .name position "RenderQueue" after)
    (rest : Region text stop after.val) :
    Acts text stop draft s ((bodyScanner text stop).act (draftInBytes text draft)
      (offset text position) "RenderQueue" (offset text after.val.start)) := by
  have acts : (bodyScanner text stop).act (draftInBytes text draft) (offset text position)
      "RenderQueue" (offset text after.val.start) =
        (inBody (draftInBytes text draft)
          (queue text stop (offset text position) (offset text after.val.start)) >>= fun found =>
            .ok (.more { draftInBytes text draft with queue := some found.1 } found.2)) := rfl
  rw [acts, queue_eq rest, Acts, bodyTold, readBody.eq_def draft s, next]
  dsimp only
  cases read : readQueue position after.val with
  | error failure => exact .inl ⟨_, rfl, rfl⟩
  | ok found =>
    exact .inr (.inr ⟨{ draft with queue := some found.1 }, found.2.val, rfl,
      queue_region rest read, Nat.lt_trans found.2.property after.property, rfl⟩)

/-- A keyword before a block of which something is read that the draft takes in. -/
theorem acts_block {α : Type} {scan : List Char → Nat → Nat → Scan α}
    {reader : Span → Except Failure α} (take : Draft → α → Draft)
    (same : ∀ {stop : Nat} {s : Span}, Region text stop s →
      scan text (offset text s.start) stop = told text id (reader s))
    (kept : ∀ a, draftInBytes text (take draft a) = take (draftInBytes text draft) a)
    (rest : Region text stop after.val)
    (reads : readBody draft s = match after.val.block with
      | .error failure => (draft, some failure)
      | .ok b => match reader b.body with
        | .error failure => (draft, some failure)
        | .ok a => readBody (take draft a) b.after) :
    Acts text stop draft s
      (inBody (draftInBytes text draft) (block text stop (offset text after.val.start)) >>=
        fun found => inBody (draftInBytes text draft) (scan text found.1 found.2) >>=
          fun a => .ok (.more (take (draftInBytes text draft) a) (found.2 + 1))) := by
  rw [block_eq rest, Acts, bodyTold, reads]
  cases read : after.val.block with
  | error failure => exact .inl ⟨_, rfl, rfl⟩
  | ok b =>
    obtain ⟨inside, behind, place⟩ := block_region rest read
    have known : scan text (ends text b).1 (ends text b).2 = told text id (reader b.body) :=
      same inside
    dsimp only [told, inBody, Except.mapError, bind, Except.bind]
    rw [known, ← place]
    cases reader b.body with
    | error failure => exact .inl ⟨_, rfl, rfl⟩
    | ok a =>
      refine .inr (.inr ⟨take draft a, b.after.val, ?_, behind,
        Nat.lt_trans b.after.property after.property, rfl⟩)
      rw [kept]
      rfl

/-- A model that is malformed is dropped, and does not stop the scan. -/
theorem acts_model (next : s.next = .name position "ShadingModel" after)
    (rest : Region text stop after.val) :
    Acts text stop draft s ((bodyScanner text stop).act (draftInBytes text draft)
      (offset text position) "ShadingModel" (offset text after.val.start)) := by
  simp only [bodyScanner, block_eq rest]
  rw [Acts, bodyTold, readBody.eq_def draft s, next]
  dsimp only
  cases read : after.val.block with
  | error failure => exact .inl ⟨_, rfl, rfl⟩
  | ok b =>
    obtain ⟨inside, behind, place⟩ := block_region rest read
    have known : model text (ends text b).1 (ends text b).2 = told text id (readModel b.body) :=
      model_eq inside
    dsimp only [told, inBody, Except.mapError, bind, Except.bind]
    rw [known, ← place]
    refine .inr (.inr ⟨draft.addModel b.body, b.after.val, ?_, behind,
      Nat.lt_trans b.after.property after.property, rfl⟩)
    rw [Draft.addModel]
    cases readModel b.body with
    | error failure =>
      dsimp only [draftInBytes]
      rw [List.map_append]
      rfl
    | ok model => rfl

end

theorem body_follows (draft : Draft) (s : Span) (region : Region text stop s) :
    Follows (bodyScanner text stop) text stop (draftInBytes text) (bodyTold text) draft s := by
  have rest := next_region region
  unfold Follows
  cases next : s.next with
  | finished =>
    dsimp only
    rw [bodyTold, readBody.eq_def, next]
    rfl
  | broken failure =>
    dsimp only
    rw [bodyTold, readBody.eq_def, next]
    rfl
  | string after =>
    dsimp only
    rw [bodyTold, bodyTold, readBody.eq_def, next]
  | other position c after =>
    dsimp only
    rw [bodyTold, bodyTold, readBody.eq_def, next]
  | name position word after =>
    rw [next] at rest
    show Acts text stop draft s ((bodyScanner text stop).act (draftInBytes text draft)
      (offset text position) word (offset text after.val.start))
    by_cases other : word ∉ ["RenderQueue", "Properties", "ShadingModel", "Pass"]
    · exact acts_other next other rest
    simp only [List.mem_cons, List.not_mem_nil, or_false, not_not] at other
    rcases other with isQueue | isProperties | isModel | isPass
    · subst isQueue
      exact acts_queue next rest
    · subst isProperties
      refine acts_block
        (fun draft listed => { draft with properties := draft.properties ++ listed })
        properties_eq (fun _ => rfl) rest ?_
      rw [readBody.eq_def draft s, next]
      dsimp only
      cases after.val.block with
      | error failure => rfl
      | ok b =>
        dsimp only
        cases readProperties b.body with
        | error failure => rfl
        | ok _ => rfl
    · subst isModel
      exact acts_model next rest
    · subst isPass
      refine acts_block (fun draft read => { draft with passes := draft.passes ++ [read] })
        pass_eq (fun _ => rfl) rest ?_
      rw [readBody.eq_def draft s, next]
      dsimp only
      cases after.val.block with
      | error failure => rfl
      | ok b =>
        dsimp only
        cases readPass b.body with
        | error failure => rfl
        | ok _ => rfl

/-! ## Errors -/

theorem count_units (cs : List Char) : (units cs).count '\n' = cs.count '\n' := by
  induction cs with
  | nil => rfl
  | cons c cs ih =>
    rw [units_cons, List.count_append, ih]
    rcases Nat.lt_or_ge c.toNat 128 with ascii | high
    · rw [units_ascii ascii, ← List.count_append]
      rfl
    · have other : c ≠ '\n' := by
        rintro rfl
        exact absurd high (by decide)
      have none : '\n' ∉ (String.utf8EncodeChar c).map byteChar :=
        fun mem => absurd (units_high high _ mem) (by decide)
      rw [List.count_eq_zero_of_not_mem none, List.count_cons_of_ne other, Nat.zero_add]

theorem offset_le (text : List Char) (n : Nat) : offset text n ≤ utf8Length text := by
  have parts := utf8Length_append (text.take n) (text.drop n)
  rw [List.take_append_drop] at parts
  rw [parts, offset]
  exact Nat.le_add_right _ _

/-- The line of an offset is the line of its place. -/
theorem errorAt_eq (text : List Char) (failure : Failure) :
    errorAt text (failureInBytes text failure) = .ok (failure.toError text) := by
  have before := @byteSlice_offsets Empty text 0 failure.position (Nat.zero_le _)
  rw [show offset text 0 = 0 from rfl, List.drop_zero] at before
  rw [errorAt, failureInBytes, Nat.min_eq_left (offset_le text _), before]
  dsimp only
  rw [count_units]
  rfl

/-- An error is in a line of the text. -/
theorem line_toError (text : List Char) (failure : Failure) :
    1 ≤ (failure.toError text).line ∧ (failure.toError text).line ≤ 1 + text.count '\n' := by
  have feeds : (text.take failure.position).count '\n' ≤ text.count '\n' :=
    (List.take_sublist _ _).count_le _
  rw [Failure.toError, lineAt]
  dsimp only
  omega

theorem dropped_eq (text : List Char) (name : String) (dropped : List Failure) :
    (dropped.map (failureInBytes text)).mapM
        (fun failure => errorAt text failure >>= fun error => (.ok (name, error) : Except Fault _)) =
      .ok (dropped.map fun failure => (name, failure.toError text)) := by
  induction dropped with
  | nil => rfl
  | cons failure dropped ih =>
    rw [List.map_cons, List.mapM_cons, ih, errorAt_eq]
    rfl

theorem failed_eq (text : List Char) (dropped : List (String × ParseError)) (failure : Failure) :
    failed text dropped (.failure (failureInBytes text failure)) =
      .ok ⟨dropped, .error (failure.toError text)⟩ := by
  rw [failed, errorAt_eq]
  rfl

/-! ## The whole text -/

theorem read_eq (text : List Char) : read text = .ok (Grammar.read text) := by
  have region := region_whole text
  have found : (shaderScanner text).run text (utf8Length text) () 0 =
      told text (fun found => (found.1, offset text found.2.start)) (findShader (.whole text)) :=
    Scanner.loop_eq _ (fun _ => shader_follows) region () (Nat.lt_succ_self _)
  rw [read, Grammar.read, found]
  cases shader : findShader (.whole text) with
  | error failure => exact failed_eq text [] failure
  | ok found =>
    obtain ⟨nameChars, rest⟩ := found
    have region' := shader_region region shader
    dsimp only [told]
    split
    · exact failed_eq text [] ⟨rest.start, .emptyName⟩
    rw [block_eq region']
    cases cut : rest.block with
    | error failure => exact failed_eq text [] failure
    | ok b =>
      obtain ⟨inside, -⟩ := block_region region' cut
      have body : (bodyScanner text (ends text b).2).run text (ends text b).2 .empty (ends text b).1 =
          bodyTold text .empty b.body :=
        Scanner.loop_eq _ body_follows inside .empty (Nat.lt_succ_self _)
      dsimp only [told]
      rw [body, bodyTold]
      cases (readBody .empty b.body).2 with
      | some failure =>
        dsimp only [draftInBytes]
        rw [dropped_eq]
        exact failed_eq text _ failure
      | none =>
        dsimp only [draftInBytes]
        rw [dropped_eq]
        dsimp only [bind, Except.bind]
        split
        · exact failed_eq text _ ⟨b.body.val.start, .noPasses (String.ofList nameChars)⟩
        · rfl

/-- All errors of a reading have the lines of places in the text. -/
theorem read_errors (text : List Char) :
    (∀ e, (Grammar.read text).result = .error e → ∃ failure : Failure, e = failure.toError text) ∧
      ∀ entry ∈ (Grammar.read text).dropped, ∃ failure : Failure, entry.2 = failure.toError text := by
  have single (failure : Failure) (e : ParseError)
      (is : (.error (failure.toError text) : Except ParseError Definition) = .error e) :
      ∃ failure : Failure, e = failure.toError text := ⟨failure, (Except.error.inj is).symm⟩
  unfold Grammar.read
  split
  · exact ⟨single _, List.forall_mem_nil _⟩
  · next nameChars rest _ =>
    dsimp only
    split
    · exact ⟨single _, List.forall_mem_nil _⟩
    · split
      · exact ⟨single _, List.forall_mem_nil _⟩
      · next b _ =>
        have listed : ∀ entry ∈ (readBody .empty b.body).1.dropped.map
            (fun failure => (String.ofList nameChars, failure.toError text)), ∃ failure : Failure,
              entry.2 = failure.toError text := by
          intro entry mem
          obtain ⟨failure, -, rfl⟩ := List.mem_map.1 mem
          exact ⟨failure, rfl⟩
        split
        · exact ⟨single _, listed⟩
        · split
          · exact ⟨single _, listed⟩
          · refine ⟨?_, listed⟩
            rintro e ⟨⟩

end

end SurfaceShading.Grammar.Bytewise

namespace SurfaceShading

open Grammar

/-- Reading by byte offsets never faults, whatever the text is: each byte and each slice is in
range and on the boundaries of characters, no depth falls below zero and no loop stalls. It gives
what reading the characters gives, and each error has a line of the text. -/
theorem reading_faultless (text : String) :
    Bytewise.read text.toList = .ok (Grammar.read text.toList) ∧
    (∀ e, Definition.parse text = .error e →
      1 ≤ e.line ∧ e.line ≤ 1 + text.toList.count '\n') ∧
    ∀ entry ∈ (Grammar.read text.toList).dropped,
      1 ≤ entry.2.line ∧ entry.2.line ≤ 1 + text.toList.count '\n' := by
  obtain ⟨last, dropped⟩ := Bytewise.read_errors text.toList
  refine ⟨Bytewise.read_eq text.toList, fun e is => ?_, fun entry mem => ?_⟩
  · obtain ⟨failure, rfl⟩ := last e is
    exact Bytewise.line_toError _ failure
  · obtain ⟨failure, is⟩ := dropped entry mem
    rw [is]
    exact Bytewise.line_toError _ failure

end SurfaceShading
