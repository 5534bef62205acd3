/-
  The names that the properties of a text have. A shader's properties are those that its
  `Properties` blocks list, one block after another. Within one block no name is listed twice,
  but no block is compared with another, so names differ exactly if no two blocks share one
  (`distinct_names_iff`).
-/
import SurfaceShading.Proofs.Material.Packing
import SurfaceShading.Shader.Grammar.Reader

namespace SurfaceShading.Grammar

/-! ## The blocks of a shader -/

/-- The inside of the block of a shader, if the text has one. -/
def shaderBody? (text : List Char) : Option Span :=
  match findShader (.whole text) with
  | .ok (_, rest) => rest.block.toOption.map fun block => block.body.val
  | .error _ => none

/-- The insides of the `Properties` blocks of a region, up to its end or the first piece that
cannot be cut out. -/
def propertyBlocks (s : Span) : List Span :=
  match s.next with
  | .finished => []
  | .broken _ => []
  | .string rest => propertyBlocks rest
  | .other _ _ rest => propertyBlocks rest
  | .name _ text rest =>
    if text = "RenderQueue" then
      match rest.val.quoted with
      | .ok (_, after) => propertyBlocks after
      | .error _ => []
    else if text ∈ ["Properties", "ShadingModel", "Pass"] then
      match rest.val.block with
      | .ok block =>
        if text = "Properties" then block.body.val :: propertyBlocks block.after
        else propertyBlocks block.after
      | .error _ => []
    else propertyBlocks rest
  termination_by s.size
  decreasing_by
    all_goals first
      | exact rest.property
      | exact Nat.lt_trans after.property rest.property
      | exact Nat.lt_trans block.after.property rest.property

/-- The properties that the lines of a block declare. -/
def Span.declared (block : Span) : List Property :=
  block.lines.filterMap fun line => (declaration? line.chars).bind Except.toOption

/-- The names that the `Properties` blocks of a text declare, block by block. -/
def declaredNames (text : List Char) : List (List String) :=
  ((shaderBody? text).toList.flatMap propertyBlocks).map fun block =>
    block.declared.map Property.name

/-! ## Reading them -/

theorem readDeclarations_ok {lines : List Span} {seen properties : List Property}
    (read : readDeclarations seen lines = .ok properties)
    (distinct : (seen.map Property.name).Nodup) :
    properties = seen ++ (lines.filterMap fun line =>
      (declaration? line.chars).bind Except.toOption) ∧
      (properties.map Property.name).Nodup := by
  induction lines generalizing seen with
  | nil =>
    cases read
    exact ⟨by simp, distinct⟩
  | cons line lines ih =>
    rw [readDeclarations] at read
    split at read
    · next none =>
      rw [List.filterMap_cons_none (by rw [none]; rfl)]
      exact ih read distinct
    · cases read
    · next p some =>
      split at read
      · cases read
      · next fresh =>
        have unlike : p.name ∉ seen.map Property.name := by simpa using fresh
        obtain ⟨is, distinct'⟩ := ih read (by
          rw [List.map_append]
          exact List.nodup_append_comm.1 (List.nodup_cons.2 ⟨unlike, distinct⟩))
        rw [List.filterMap_cons_some (by rw [some]; rfl : _ = Option.some p)]
        exact ⟨by rw [is, List.append_assoc, List.singleton_append], distinct'⟩

theorem readProperties_ok {block : Span} {properties : List Property}
    (read : readProperties block = .ok properties) :
    properties = block.declared ∧ (properties.map Property.name).Nodup := by
  have listed := readDeclarations_ok read List.nodup_nil
  rwa [List.nil_append] at listed

/-- A body that is read to its end adds the properties of its blocks in order, and no name
occurs twice in one of them. -/
theorem readBody_properties {s : Span} {draft draft' : Draft}
    (read : readBody draft s = (draft', none)) :
    draft'.properties = draft.properties ++ (propertyBlocks s).flatMap Span.declared ∧
      ∀ block ∈ propertyBlocks s, (block.declared.map Property.name).Nodup := by
  fun_induction readBody draft s with
  | case1 draft s here =>
    cases read
    rw [propertyBlocks, here]
    exact ⟨(List.append_nil _).symm, fun _ mem => by cases mem⟩
  | case3 draft s rest here ih =>
    rw [propertyBlocks, here]
    exact ih read
  | case4 draft s _ _ rest here ih =>
    rw [propertyBlocks, here]
    exact ih read
  | case6 draft s _ rest queue after queued here ih =>
    obtain ⟨⟨text, after'⟩, quoted, named⟩ := except_bind_eq_ok.1 queued
    obtain rfl : after' = after := by
      dsimp only at named
      split at named <;> cases named
      rfl
    have next : propertyBlocks s = propertyBlocks after' := by
      rw [propertyBlocks, here]
      simp [quoted]
    rw [next]
    exact ih read
  | case9 draft s _ rest block cut properties listed here ih =>
    obtain ⟨rfl, distinct⟩ := readProperties_ok listed
    obtain ⟨is, all⟩ := ih read
    have next : propertyBlocks s = block.body.val :: propertyBlocks block.after := by
      rw [propertyBlocks, here]
      simp [cut]
    rw [next, is, List.flatMap_cons, ← List.append_assoc]
    exact ⟨rfl, List.forall_mem_cons.2 ⟨distinct, all⟩⟩
  | case11 draft s _ rest block cut here ih =>
    have next : propertyBlocks s = propertyBlocks block.after := by
      rw [propertyBlocks, here]
      simp [cut]
    have same : (draft.addModel block.body).properties = draft.properties := by
      unfold Draft.addModel
      split <;> rfl
    rw [next, ← same]
    exact ih read
  | case14 draft s _ rest block cut pass _ here ih =>
    have next : propertyBlocks s = propertyBlocks block.after := by
      rw [propertyBlocks, here]
      simp [cut]
    rw [next]
    exact ih read
  | case15 draft s _ text rest here noQueue noProperties noModel noPass ih =>
    have next : propertyBlocks s = propertyBlocks rest := by
      rw [propertyBlocks, here]
      simp [show text ≠ _ from noQueue, show text ≠ _ from noProperties,
        show text ≠ _ from noModel, show text ≠ _ from noPass]
    rw [next]
    exact ih read
  | _ => cases read

/-- What reading a text to a definition comes to. -/
theorem read_eq_ok {text : List Char} {d : Definition} (read : (read text).result = .ok d) :
    ∃ name rest block draft, findShader (.whole text) = .ok (name, rest) ∧
      rest.block = .ok block ∧ readBody .empty block.body = (draft, none) ∧
      d = draft.finish (String.ofList name) := by
  unfold Grammar.read at read
  split at read
  · cases read
  · next name rest found =>
    dsimp only at read
    split at read
    · cases read
    · split at read
      · cases read
      · next block cut =>
        cases body : readBody .empty block.body with
        | mk draft failure? =>
          rw [body] at read
          dsimp only at read
          split at read
          · cases read
          · split at read
            · cases read
            · cases read
              exact ⟨name, rest, block, draft, found, cut, body, rfl⟩

end SurfaceShading.Grammar

namespace SurfaceShading

open Grammar

/-- **When the names of a text's properties differ.** The properties of a definition that is read
are those of the `Properties` blocks of its text, in order. No block names a property twice, and
all names differ exactly if no two blocks share one; then each parameter of the shader is the one
that its name finds. -/
theorem distinct_names_iff {text : String} {d : Definition} (parsed : Definition.parse text = .ok d) :
    d.properties.map Property.name = (declaredNames text.toList).flatten ∧
    (∀ names ∈ declaredNames text.toList, names.Nodup) ∧
    ((d.properties.map Property.name).Nodup ↔
      (declaredNames text.toList).Pairwise List.Disjoint) ∧
    ((d.properties.map Property.name).Nodup → ∀ shared limit shader,
      Shader.ofDefinition d shared limit = .ok shader →
        ∀ q ∈ shader.layout.parameters, shader.parameter? q.name = some q) := by
  obtain ⟨name, rest, block, draft, found, cut, body, rfl⟩ := read_eq_ok parsed
  obtain ⟨listed, distinct⟩ := readBody_properties body
  have blocks : declaredNames text.toList =
      (propertyBlocks block.body).map fun block => block.declared.map Property.name := by
    rw [declaredNames, shaderBody?, found]
    dsimp only
    rw [cut]
    simp [Except.toOption]
  have names : (draft.finish (String.ofList name)).properties.map Property.name =
      (declaredNames text.toList).flatten := by
    rw [blocks, ← List.flatMap_def, ← List.map_flatMap]
    exact congrArg (List.map Property.name) (listed.trans (List.nil_append _))
  have single : ∀ names ∈ declaredNames text.toList, names.Nodup := by
    rw [blocks]
    exact List.forall_mem_map.2 distinct
  refine ⟨names, single, ?_, fun all _ _ _ made q mem => ?_⟩
  · rw [names, List.nodup_flatten]
    exact and_iff_right single
  · rw [Shader.layout_of_ofDefinition made] at mem
    rw [Shader.parameter?, Shader.layout_of_ofDefinition made]
    exact Layout.parameter?_of_mem (Layout.nodup_names all) mem

/-- A text with two lists of properties, in which no name is in both. -/
def woodText : String :=
  "Shader \"Wood\" \x7b Properties \x7b\n//# Float Gloss\n\x7d " ++
    "Pass \x7b HLSLPROGRAM\n#pragma vertex V\n#pragma fragment P\nENDHLSL \x7d " ++
    "Properties \x7b\n//# Texture2D Grain\n//# Int Wear\n\x7d \x7d"

/-- What it declares. -/
def wood : Definition :=
  ⟨"Wood", .forward,
    [.plain "Gloss" (.value .float), .plain "Grain" (.texture .d2), .plain "Wear" (.value .int)],
    [⟨"Pass0", .forward, "V", "P", ""⟩], none⟩

theorem wood_distinct_names :
    Definition.parse woodText = .ok wood ∧
    declaredNames woodText.toList = [["Gloss"], ["Grain", "Wear"]] ∧
    (wood.properties.map Property.name).Nodup ∧
    ∀ shared limit shader, Shader.ofDefinition wood shared limit = .ok shader →
      ∀ q ∈ shader.layout.parameters, shader.parameter? q.name = some q := by
  have runs : (Definition.parse woodText).toOption = some wood ∧
      declaredNames woodText.toList = [["Gloss"], ["Grain", "Wear"]] := by decide +kernel
  have parsed := ok_of_toOption runs.1
  have names := runs.2
  obtain ⟨_, _, iff, each⟩ := distinct_names_iff parsed
  have distinct := iff.2 (by rw [names]; simp)
  exact ⟨parsed, names, distinct, each distinct⟩

/-- A text that lists one name in two blocks. -/
def glossyText : String :=
  "Shader \"Stone\"\n\x7b\nProperties\n\x7b\n//# Float Gloss\n\x7d\n" ++
    "Properties\n\x7b\n//# Int Gloss\n\x7d\n" ++
    "Pass\n\x7b\nHLSLPROGRAM\n#pragma vertex V\n#pragma fragment P\nENDHLSL\n\x7d\n\x7d\n"

/-- The text is read without an error, and its properties have one name. -/
theorem glossy_shares_name :
    (Definition.parse glossyText).toOption.map (fun d => d.properties.map Property.name) =
      some ["Gloss", "Gloss"] ∧
    ¬ ∀ text d, Definition.parse text = .ok d → (d.properties.map Property.name).Nodup := by
  have names : (Definition.parse glossyText).toOption.map
      (fun d => d.properties.map Property.name) = some ["Gloss", "Gloss"] := by decide +kernel
  refine ⟨names, fun distinct => ?_⟩
  obtain ⟨d, parsed, is⟩ := Option.map_eq_some_iff.1 names
  have nodup := distinct glossyText d (ok_of_toOption parsed)
  rw [is] at nodup
  revert nodup
  decide

end SurfaceShading
