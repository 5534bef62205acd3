/-
  Reading is complete for the documented grammar: the text that is written for a definition
  whose parts can be told apart is read as that definition, without a warning (`parse_text`).
-/
import SurfaceShading.Proofs.Grammar.Written.Models
import SurfaceShading.Proofs.Grammar.Written.Passes
import SurfaceShading.Proofs.Grammar.Written.Properties

namespace SurfaceShading.Grammar

variable {s : Span} {rest : List Char}

/-! ## Balance of what is written -/

theorem balanced_blanks : Balanced '\x7b' '\x7d' ['\n'] := .of_not_mem (by decide) (by decide)

theorem balanced_named {keyword : String} (is : isName keyword.toList = true) {name : List Char}
    (braces : NoBraces name) : Balanced '\x7b' '\x7d' (writeNamed keyword name) := by
  obtain ⟨-, none, -⟩ := isName_solid is
  exact .of_not_mem (by simp [writeNamed, none.opener, braces.opener])
    (by simp [writeNamed, none.closer, braces.closer])

theorem balanced_assignment {key : String} (is : isName key.toList = true) {text : List Char}
    (braces : NoBraces text) : Balanced '\x7b' '\x7d' (writeAssignment key text) := by
  obtain ⟨-, none, -⟩ := isName_solid is
  exact .of_not_mem (by simp [writeAssignment, none.opener, braces.opener])
    (by simp [writeAssignment, none.closer, braces.closer])

theorem balanced_block {keyword : String} (is : isName keyword.toList = true) {body : List Char}
    (balanced : Balanced '\x7b' '\x7d' body) :
    Balanced '\x7b' '\x7d' (writeBlock keyword body) := by
  obtain ⟨-, none, -⟩ := isName_solid is
  have head : Balanced '\x7b' '\x7d' (keyword.toList ++ [' ']) :=
    .of_not_mem (by simp [none.opener]) (by simp [none.closer])
  have group := (balanced_blanks.append balanced).group (by decide)
  simpa [writeBlock] using (head.append group).append balanced_blanks

theorem balanced_queue (queue : RenderQueue) : Balanced '\x7b' '\x7d' (writeQueue queue) :=
  balanced_named (by decide) (by cases queue <;> exact ⟨by decide, by decide⟩)

theorem balanced_properties {properties : List Property}
    (writable : ∀ p ∈ properties, WritableProperty p) :
    Balanced '\x7b' '\x7d' (writeProperties properties) :=
  .flatMap fun p mem => (writeProperty_line (writable p mem)).2.append balanced_blanks

theorem balanced_model {m : ShadingModel} (writable : WritableModel m) :
    Balanced '\x7b' '\x7d' (writeModel m) := by
  obtain ⟨-, digits, -⟩ := toDigits_solid m.id.toNat
  exact ((balanced_assignment (by decide) digits).append
    (balanced_assignment (by decide) writable.braces)).append
      (balanced_block (by decide) (writable.balanced.append balanced_blanks))

theorem balanced_pass {p : Pass} (writable : WritablePass p) :
    Balanced '\x7b' '\x7d' (writePass p) := by
  have pragma (stage : Stage) {entry : List Char} (braces : NoBraces entry) :
      Balanced '\x7b' '\x7d' (writePragma stage entry ++ ['\n']) := by
    have name : NoBraces (ParseCause.pragmaName stage).toList := by
      cases stage <;> exact ⟨by decide, by decide⟩
    have mark : NoBraces pragmaMark := ⟨by decide, by decide⟩
    exact .of_not_mem (by simp [writePragma, mark.opener, name.opener, braces.opener])
      (by simp [writePragma, mark.closer, name.closer, braces.closer])
  have start : Balanced '\x7b' '\x7d' (programStart ++ ['\n']) :=
    .of_not_mem (by decide) (by decide)
  have stop : Balanced '\x7b' '\x7d' ('\n' :: (programEnd ++ ['\n'])) :=
    .of_not_mem (by decide) (by decide)
  have all := ((balanced_named (by decide : isName "Name".toList = true) writable.braces).append
    (balanced_queue p.queue)).append (start.append ((pragma .vertex writable.vertex.braces).append
      ((pragma .fragment writable.fragment.braces).append (writable.body.balanced.append stop))))
  simpa [writePass] using all

/-! ## Declarations of a shader -/

theorem readBody_queue (queue : RenderQueue) (text : s.chars = '\n' :: (writeQueue queue ++ rest))
    (draft : Draft) : ∃ after : Span, after.chars = '\n' :: rest ∧
      readBody draft s = readBody { draft with queue := some queue } after := by
  obtain ⟨_, behind, after, next, quoted, chars⟩ :=
    next_named (by decide) (quotable_queue queue) text
  refine ⟨after, chars, ?_⟩
  rw [readBody, next]
  dsimp only
  rw [readQueue_ok quoted]
  rfl

theorem readBody_listed {properties : List Property}
    (writable : ∀ p ∈ properties, WritableProperty p)
    (distinct : (properties.map Property.name).Nodup)
    (text : s.chars = '\n' :: (writeBlock "Properties" (writeProperties properties) ++ rest))
    (draft : Draft) : ∃ after : Span, after.chars = '\n' :: rest ∧
      readBody draft s = readBody { draft with properties := draft.properties ++ properties } after := by
  obtain ⟨_, behind, block, next, cut, body, chars⟩ :=
    next_block (by decide) (balanced_properties writable) text
  have listed : readProperties block.body = .ok properties := by
    rw [readProperties, Span.lines, body, ← List.nil_append ('\n' :: _),
      Text.splitAtChar_line List.not_mem_nil, Span.lines.placed, readDeclarations]
    exact @readDeclarations_written properties writable [] distinct _
  refine ⟨block.after, chars, ?_⟩
  rw [readBody, next]
  dsimp only
  rw [cut]
  dsimp only
  rw [listed]
  rfl

theorem readBody_model {m : ShadingModel} (writable : WritableModel m)
    (text : s.chars = '\n' :: (writeBlock "ShadingModel" (writeModel m) ++ rest))
    (draft : Draft) : ∃ after : Span, after.chars = '\n' :: rest ∧
      readBody draft s = readBody { draft with model := some m } after := by
  obtain ⟨_, behind, block, next, cut, body, chars⟩ :=
    next_block (by decide) (balanced_model writable) text
  refine ⟨block.after, chars, ?_⟩
  rw [readBody, next]
  dsimp only
  rw [cut]
  dsimp only
  rw [Draft.addModel, readModel_written writable body]
  rfl

/-- A pass as it is read. -/
def draftOf (p : Pass) : PassDraft := ⟨⟨some p.name, some p.queue⟩, p.vertex, p.fragment, p.body⟩

theorem readBody_passes {passes : List Pass} (writable : ∀ p ∈ passes, WritablePass p)
    (text : s.chars = '\n' :: passes.flatMap fun p => writeBlock "Pass" (writePass p))
    (draft : Draft) :
    readBody draft s = ({ draft with passes := draft.passes ++ passes.map draftOf }, none) := by
  induction passes generalizing s draft with
  | nil =>
    rw [readBody, next_finished text]
    simp
  | cons p passes ih =>
    have here := writable p List.mem_cons_self
    obtain ⟨_, behind, block, next, cut, body, chars⟩ :=
      next_block (by decide) (balanced_pass here) text
    have later := ih (fun q mem => writable q (List.mem_cons_of_mem p mem)) chars
      { draft with passes := draft.passes ++ [draftOf p] }
    rw [List.map_cons, List.append_cons, ← later, readBody, next]
    dsimp only
    rw [cut]
    dsimp only
    rw [readPass_written here body]
    rfl

theorem balanced_body {d : Definition} (writable : Writable d) :
    Balanced '\x7b' '\x7d' (writeBody d) := by
  have queue := (balanced_queue d.queue).append
    (balanced_block (by decide : isName "Properties".toList = true)
      (balanced_properties writable.properties))
  have model : Balanced '\x7b' '\x7d'
      (d.model.toList.flatMap fun m => writeBlock "ShadingModel" (writeModel m)) :=
    .flatMap fun m mem =>
      balanced_block (by decide) (balanced_model (writable.model m (Option.mem_toList.1 mem)))
  exact (queue.append model).append
    (.flatMap fun p mem => balanced_block (by decide) (balanced_pass (writable.passes p mem)))

/-- The declarations of a shader are read to the end. -/
theorem readBody_written {d : Definition} (writable : Writable d)
    (text : s.chars = '\n' :: writeBody d) :
    readBody .empty s =
      (⟨some d.queue, d.properties, d.passes.map draftOf, d.model, []⟩, none) := by
  rw [writeBody, List.append_assoc, List.append_assoc] at text
  obtain ⟨s₁, text₁, read₁⟩ := readBody_queue d.queue text .empty
  obtain ⟨s₂, text₂, read₂⟩ := readBody_listed writable.properties writable.distinct text₁
    { Draft.empty with queue := some d.queue }
  rw [read₁, read₂]
  cases model : d.model with
  | none =>
    rw [model] at text₂
    rw [readBody_passes writable.passes text₂]
    rfl
  | some m =>
    rw [model, Option.toList_some, List.flatMap_singleton] at text₂
    obtain ⟨s₃, text₃, read₃⟩ := readBody_model (writable.model m model) text₂
      ⟨some d.queue, [] ++ d.properties, [], none, []⟩
    exact read₃.trans (readBody_passes writable.passes text₃ _)

/-! ## The whole text -/

/-- A draft of a definition's own passes is finished to the definition. -/
theorem finish_written (d : Definition) :
    Draft.finish ⟨some d.queue, d.properties, d.passes.map draftOf, d.model, []⟩ d.name = d := by
  have passes : (d.passes.map draftOf).mapIdx (fun i p => p.finish d.queue i) = d.passes := by
    refine List.ext_getElem (by simp) fun i _ _ => ?_
    rw [List.getElem_mapIdx, List.getElem_map]
    rfl
  simp [Draft.finish, passes]

theorem findShader_written {d : Definition} (writable : Writable d) :
    ∃ rest : Span, findShader (.whole (write d)) = .ok (d.name.toList, rest) ∧
      rest.chars = [' '] ++ '\x7b' :: ('\n' :: writeBody d ++ '\x7d' :: ['\n']) := by
  obtain ⟨_, behind, next, chars⟩ := @next_name (.whole (write d)) _ "Shader" (by decide)
    (afterTrivia_name (by decide) _) (by rintro _ ⟨⟩; rfl)
  obtain ⟨after, quoted, chars'⟩ := @quoted_ok behind _ _ writable.name.quote writable.name.feed
    (by rw [chars, afterTrivia_blank rfl, afterTrivia_solid rfl (by decide)])
  refine ⟨after, ?_, chars'⟩
  rw [findShader, next]
  dsimp only
  rw [if_pos rfl, quoted]

/-- A written text gives its definition and no warning. -/
theorem read_written {d : Definition} (writable : Writable d) : read (write d) = ⟨[], .ok d⟩ := by
  obtain ⟨rest, found, text⟩ := findShader_written writable
  obtain ⟨block, cut, body, -⟩ := block_ok (by decide)
    (balanced_blanks.append (balanced_body writable)) text
  have named : (Text.trim d.name.toList).isEmpty = false := by
    simpa using Text.trim_ne_nil writable.named
  have some : (d.passes.map draftOf).isEmpty = false := by
    simpa using writable.nonempty
  rw [read, found]
  dsimp only
  rw [named, if_neg Bool.false_ne_true, cut]
  dsimp only
  rw [readBody_written writable body]
  dsimp only
  rw [some, if_neg Bool.false_ne_true, String.ofList_toList, finish_written]
  rfl

end SurfaceShading.Grammar

namespace SurfaceShading

open Grammar

/-- The text of a definition. -/
def Definition.text (d : Definition) : String := String.ofList (write d)

/-- **Reading is complete.** The text of a definition whose parts can be told apart is read as
that definition, and no shading model is dropped. -/
theorem parse_text {d : Definition} (writable : Writable d) :
    Definition.parse d.text = .ok d ∧ (Grammar.read d.text.toList).dropped = [] := by
  rw [Definition.parse, Definition.text, String.toList_ofList, read_written writable]
  exact ⟨rfl, rfl⟩

/-- A definition with a model, with braces in its code, and with parentheses and commas in its
attributes. -/
def lichen : Definition :=
  ⟨"Lichen 2", .deferred,
    [⟨"Wear", .value .float, some "(0.5)", some "0", none, some "range(0, (1))"⟩,
      .plain "Grain" (.texture .cube)],
    [⟨"Main pass", .deferred, "V", "P", "void V()\n\x7b\n\x7d // \"\x7b\x7d\""⟩, ⟨"", .forward, "V", "P", ""⟩],
    some ⟨7, "L(b) * 2", "F L(B b)\n\x7b return b.x; \x7d"⟩⟩

/-- The lines of its text. -/
def lichenLines : List String :=
  ["Shader \"Lichen 2\" \x7b", "RenderQueue \"Deferred\"",
    "Properties \x7b",
    "//# Float Wear \x7b default((0.5)), min(0), ui(range(0, (1))) \x7d",
    "//# TextureCube Grain",
    "\x7d",
    "ShadingModel \x7b", "shadingmodel = 7;", "BRDF = L(b) * 2;",
    "BRDF \x7b", "F L(B b)", "\x7b return b.x; \x7d", "\x7d",
    "\x7d",
    "Pass \x7b", "Name \"Main pass\"", "RenderQueue \"Deferred\"",
    "HLSLPROGRAM", "#pragma vertex V", "#pragma fragment P",
    "void V()", "\x7b", "\x7d // \"\x7b\x7d\"", "ENDHLSL",
    "\x7d",
    "Pass \x7b", "Name \"\"", "RenderQueue \"Forward\"",
    "HLSLPROGRAM", "#pragma vertex V", "#pragma fragment P", "", "ENDHLSL",
    "\x7d",
    "\x7d", ""]

/-- The definition has the text of these lines, and the text reads as the definition. -/
theorem lichen_parse_text :
    Writable lichen ∧
    lichen.text = String.ofList (Text.joinWith ['\n'] (lichenLines.map String.toList)) ∧
    Definition.parse lichen.text = .ok lichen ∧
    (Grammar.read lichen.text.toList).dropped = [] := by
  have writable : Writable lichen := by decide +kernel
  have lines : write lichen = Text.joinWith ['\n'] (lichenLines.map String.toList) := by
    decide +kernel
  exact ⟨writable, congrArg String.ofList lines, parse_text writable⟩

end SurfaceShading
