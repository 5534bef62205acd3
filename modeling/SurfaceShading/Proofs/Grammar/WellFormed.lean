/-
  What is read of a text is well formed. Names, entry points and the call of a model have the form
  that generated code relies on, and the body of each pass is told line by line from the code in
  its block (`Definition.parse_wellFormed`). The facts are those of the steps of the reader, and
  the declarations of a text carry them to what it declares.
-/
import SurfaceShading.Proofs.Grammar.Declarations
import SurfaceShading.Proofs.Grammar.Program
import SurfaceShading.Proofs.Material.FieldNames

namespace SurfaceShading.Grammar

/-! ## The name -/

theorem quotable_quoted {s : Span} {content : List Char} {after : Shorter s.size}
    (read : s.quoted = .ok (content, after)) : Quotable content := by
  have unplaced := quoted_unplaced s
  rw [read] at unplaced
  obtain ⟨-, inside⟩ := quoteOf_eq_some.1 unplaced.symm
  constructor
  · intro mem
    cases inside _ mem
  · intro mem
    cases inside _ mem

theorem quotable_shader {s rest : Span} {name : List Char}
    (found : findShader s = .ok (name, rest)) : Quotable name := by
  fun_induction findShader s with
  | case3 _ _ _ ih => exact ih found
  | case4 _ _ _ _ _ ih => exact ih found
  | case5 _ _ _ _ _ quoted =>
    cases found
    exact quotable_quoted quoted
  | case7 _ _ _ _ _ _ ih => exact ih found
  | _ => cases found

/-! ## The call of a model -/

/-- A call that can stand for an expression: trimmed, not empty and without a semicolon. -/
structure Callable (call : List Char) : Prop where
  trimmed : Text.Trimmed call
  nonempty : call ≠ []
  semicolon : ';' ∉ call

instance (call : List Char) : Decidable (Callable call) :=
  decidable_of_iff (_ ∧ _ ∧ _)
    ⟨fun h => ⟨h.1, h.2.1, h.2.2⟩, fun h => ⟨h.trimmed, h.nonempty, h.semicolon⟩⟩

theorem callable_assign {draft draft' : ModelDraft} {key : String} {value : List Char}
    (none : ';' ∉ value) (is : draft.assign key (Text.trim value) = .ok draft')
    (callable : ∀ call ∈ draft.call, Callable call.toList) :
    ∀ call ∈ draft'.call, Callable call.toList := by
  unfold ModelDraft.assign at is
  dsimp only at is
  split at is
  · split at is <;> cases is
    exact callable
  · split at is
    · split at is
      · cases is
      · next some =>
        cases is
        rintro _ ⟨⟩
        rw [String.toList_ofList]
        exact ⟨Text.trimmed_trim value, by simpa using some, mt Text.mem_trim none⟩
    · cases is

theorem callable_entries {draft draft' : ModelDraft} {s : Span}
    (read : readEntries draft s = .ok draft')
    (callable : ∀ call ∈ draft.call, Callable call.toList) :
    ∀ call ∈ draft'.call, Callable call.toList := by
  fun_induction readEntries draft s with
  | case1 =>
    cases read
    exact callable
  | case2 draft s t c cs _ _ name key u rest _ value _ given assigned ih =>
    have none : ';' ∉ value := fun mem => by simpa using List.mem_takeWhile_imp mem
    exact ih read (callable_assign none assigned callable)
  | case5 draft s t c cs _ _ name key u tail _ _ block _ code ih => exact ih read callable
  | _ => cases read

theorem callable_model {block : Span} {model : ShadingModel} (read : readModel block = .ok model) :
    Callable model.call.toList := by
  obtain ⟨draft, entries, read⟩ := except_bind_eq_ok.1 read
  have callable := callable_entries entries (by simp)
  split at read <;> cases read
  next called _ => exact callable _ called

/-! ## The passes -/

/-- The inside of the block of a pass, and what was read from it. -/
def Declaration.pass? {R : Type} : Declaration R → Option (R × PassDraft)
  | .pass block draft => some (block, draft)
  | _ => none

/-- The insides of the `Pass` blocks that the keyword loop takes in. -/
def passBlocks (text : List Char) : List (List Char) :=
  (((shaderBody? text).toList.flatMap declarations).filterMap Declaration.pass?).map fun pass =>
    pass.1.chars

theorem foldl_passes (listed : List (Declaration Span)) (draft : Draft) :
    (listed.foldl Draft.add draft).passes =
      draft.passes ++ (listed.filterMap Declaration.pass?).map Prod.snd := by
  induction listed generalizing draft with
  | nil => exact (List.append_nil _).symm
  | cons declaration listed ih =>
    rw [List.foldl_cons, ih]
    cases declaration with
    | pass block read => simp [Draft.add, Declaration.pass?]
    | model block =>
      have same : (draft.addModel block).passes = draft.passes := by
        unfold Draft.addModel
        split <;> rfl
      rw [List.filterMap_cons_none rfl]
      exact congrArg (· ++ _) same
    | _ => rfl

theorem foldl_model {listed : List (Declaration Span)} {draft : Draft} {model : ShadingModel}
    (is : (listed.foldl Draft.add draft).model = some model) :
    draft.model = some model ∨ ∃ block, readModel block = .ok model := by
  induction listed generalizing draft with
  | nil => exact .inl is
  | cons declaration listed ih =>
    rcases ih is with before | read
    · cases declaration with
      | model block =>
        have before : (draft.addModel block).model = some model := before
        unfold Draft.addModel at before
        split at before
        · next found read =>
          cases before
          exact .inr ⟨block, read⟩
        · exact .inl before
      | _ => exact .inl before
    · exact .inr read

/-- What the pass of a block is: entry points that are words, and a body in which the program
does not end and no line names an entry point. It is told exactly when the body is the code
between the marks, line by line. -/
structure PassOf (block : List Char) (pass : Pass) : Prop where
  vertex : Text.Word pass.vertex.toList
  fragment : Text.Word pass.fragment.toList
  inside : ¬ programEnd <:+: pass.body.toList
  entries : ∀ line ∈ Text.splitAtChar '\n' pass.body.toList, ¬ IsEntryLine line
  body : ∃ code, programOf? block = some code ∧
    (pass.body = String.ofList (Text.joinWith ['\n'] (codeLines code)) ↔
      (∀ line ∈ Text.lines code, ¬ IsGluedLine line) ∧ ¬ StrayReturn code)

theorem passOf_read {block : Span} {draft : PassDraft} (read : readPass block = .ok draft)
    (queue : RenderQueue) (index : Nat) : PassOf block.chars (draft.finish queue index) := by
  obtain ⟨vertex, fragment, code, program, body⟩ := readPass_ok read
  have chars : (draft.finish queue index).body.toList = programBody code := by
    rw [PassDraft.finish, body, String.toList_ofList]
  refine ⟨vertex, fragment, ?_, ?_, code, program, ?_⟩
  · rw [chars]
    exact not_infix_programBody (by decide) (by decide) (not_infix_program program)
  · rw [chars]
    exact fun line => not_entry_programBody
  · rw [← programBody_eq_iff, ← chars, ← String.toList_inj, String.toList_ofList]

theorem forall₂_finish {listed : List (Span × PassDraft)} {finish : Nat → PassDraft → Pass}
    (each : ∀ pass ∈ listed, ∀ index, PassOf pass.1.chars (finish index pass.2)) :
    List.Forall₂ PassOf (listed.map fun pass => pass.1.chars)
      ((listed.map Prod.snd).mapIdx finish) := by
  induction listed generalizing finish with
  | nil => exact .nil
  | cons pass listed ih =>
    rw [List.map_cons, List.map_cons, List.mapIdx_cons]
    refine .cons (each pass List.mem_cons_self 0) (ih fun later mem index => ?_)
    exact each later (List.mem_cons_of_mem pass mem) (index + 1)

/-- The passes that are read are those of the blocks, in order. -/
theorem passes_of_read {s : Span} {draft : Draft} (read : readBody .empty s = (draft, none))
    (queue : RenderQueue) :
    List.Forall₂ PassOf
      (((declarations s).filterMap Declaration.pass?).map fun pass => pass.1.chars)
      (draft.passes.mapIdx fun i p => p.finish queue i) := by
  rw [readBody_declarations read, foldl_passes, Draft.empty, List.nil_append]
  refine forall₂_finish fun pass mem index => ?_
  obtain ⟨declaration, listed, is⟩ := List.mem_filterMap.1 mem
  rcases mem_declarations listed with ⟨_, rfl⟩ | ⟨block, declares⟩
  · cases is
  · cases declares with
    | pass read =>
      cases is
      exact passOf_read read queue index
    | _ => cases is

/-- What is tested of a text before it is taken for a shader. -/
theorem read_tested {text : List Char} {d : Definition} (read : (read text).result = .ok d) :
    Text.trim d.name.toList ≠ [] ∧ d.passes ≠ [] := by
  obtain ⟨name, rest, block, draft, found, cut, body, rfl⟩ := read_eq_ok read
  unfold Grammar.read at read
  rw [found] at read
  dsimp only at read
  split at read
  · cases read
  · next named =>
    rw [cut] at read
    dsimp only at read
    rw [body] at read
    dsimp only at read
    split at read
    · cases read
    · next some =>
      constructor
      · rw [Draft.finish, String.toList_ofList]
        simpa using named
      · rw [Draft.finish]
        simpa using some

end SurfaceShading.Grammar

namespace SurfaceShading

open Grammar

/-- **What is read of a text is well formed.** Name, property names, entry points and the call of
the model always are; each pass is that of its block, and its body is the code of the block line
by line exactly if no line of it has `#pragma` and the stage in one word and no carriage return
stays behind its last line. -/
theorem Definition.parse_wellFormed {text : String} {d : Definition}
    (parsed : Definition.parse text = .ok d) :
    Quotable d.name.toList ∧ Text.trim d.name.toList ≠ [] ∧
    (∀ p ∈ d.properties, isName p.name.toList = true) ∧
    (∀ m ∈ d.model, Callable m.call.toList) ∧
    d.passes ≠ [] ∧ List.Forall₂ PassOf (passBlocks text.toList) d.passes := by
  obtain ⟨named, some⟩ := read_tested parsed
  have properties := fun p => isName_of_parsed parsed (p := p)
  obtain ⟨name, rest, block, draft, found, cut, body, rfl⟩ := read_eq_ok parsed
  have blocks : passBlocks text.toList =
      ((declarations block.body).filterMap Declaration.pass?).map fun pass => pass.1.chars := by
    rw [passBlocks, shaderBody?, found]
    dsimp only
    rw [cut]
    simp [Except.toOption]
  refine ⟨?_, named, properties, fun model is => ?_, some, ?_⟩
  · rw [Draft.finish, String.toList_ofList]
    exact quotable_shader found
  · have is : draft.model = _ := is
    rw [readBody_declarations body] at is
    obtain none | ⟨_, read⟩ := foldl_model is
    · cases none
    · exact callable_model read
  · rw [blocks]
    exact passes_of_read body _

/-- A text with a property, a model and a pass, whose lines end with carriage returns. -/
def slateText : String :=
  "Shader \"Slate\" \x7b Properties \x7b\r\n//# Float Gloss\r\n\x7d\r\n" ++
    "ShadingModel \x7b shadingmodel = 3; BRDF = Slate(input) ; BRDF \x7b return 1; \x7d \x7d\r\n" ++
    "Pass \x7b HLSLPROGRAM\r\n#pragma vertex V\r\n\r\nfloat a;\r\n" ++
    "#pragma fragment P\r\nENDHLSL \x7d \x7d"

/-- What it declares. -/
def slate : Definition :=
  ⟨"Slate", .forward, [.plain "Gloss" (.value .float)],
    [⟨"Pass0", .forward, "V", "P", "float a;"⟩], some ⟨3, "Slate(input)", " return 1; "⟩⟩

theorem slate_wellFormed :
    Definition.parse slateText = .ok slate ∧
    (Quotable "Slate".toList ∧ Callable "Slate(input)".toList ∧ isName "Gloss".toList = true) ∧
    List.Forall₂ PassOf (passBlocks slateText.toList) slate.passes := by
  have runs : (Definition.parse slateText).toOption = some slate := by decide +kernel
  have parsed := ok_of_toOption runs
  obtain ⟨name, -, properties, model, -, passes⟩ := Definition.parse_wellFormed parsed
  exact ⟨parsed, ⟨name, model _ rfl, properties _ List.mem_cons_self⟩, passes⟩

/-- A text in which an entry point stands between the last line of the code and the mark. -/
def strayText : String :=
  "Shader \"Slate\" \x7b Pass \x7b HLSLPROGRAM\r\n#pragma vertex V\r\nfloat a;\r\n" ++
    "#pragma fragment P ENDHLSL \x7d \x7d"

/-- A text with a line that is no entry point and is taken for one. -/
def gluedText : String :=
  "Shader \"Slate\" \x7b Pass \x7b HLSLPROGRAM\n#pragma vertex V\n#pragma fragment P\n" ++
    "#pragmavertex W\nENDHLSL \x7d \x7d"

/-- The bodies of the passes of a text, if they are the code of its blocks line by line. -/
def cleanBodies (text : String) : List (Option String) :=
  (passBlocks text.toList).map fun block => (programOf? block).map fun code =>
    String.ofList (Text.joinWith ['\n'] (codeLines code))

/-- What is read has a carriage return that ended a line, or lacks a line that is no entry point. -/
theorem bodies_differ :
    (cleanBodies strayText = [some "float a;"] ∧
      (Definition.parse strayText).toOption.map (·.passes.map Pass.body) = some ["float a;\r"]) ∧
    (cleanBodies gluedText = [some "#pragmavertex W"] ∧
      (Definition.parse gluedText).toOption.map (·.passes.map Pass.body) = some [""]) ∧
    ¬ ∀ text d, Definition.parse text = .ok d →
      d.passes.map (some ·.body) = cleanBodies text := by
  have runs : (cleanBodies strayText = [some "float a;"] ∧
      (Definition.parse strayText).toOption.map (·.passes.map Pass.body) = some ["float a;\r"]) ∧
    (cleanBodies gluedText = [some "#pragmavertex W"] ∧
      (Definition.parse gluedText).toOption.map (·.passes.map Pass.body) = some [""]) := by
    decide +kernel
  refine ⟨runs.1, runs.2, fun all => ?_⟩
  obtain ⟨clean, read⟩ := runs.1
  obtain ⟨d, parsed, bodies⟩ := Option.map_eq_some_iff.1 read
  have same := all strayText d (ok_of_toOption parsed)
  have bodies' : d.passes.map (some ·.body) = (d.passes.map Pass.body).map some := by
    rw [List.map_map]
    rfl
  rw [clean, bodies', bodies] at same
  revert same
  decide

end SurfaceShading
