/-
  Reading the text of a shader: its name, and the declarations in the block after it. A
  malformed shading model is dropped with a warning; anything else that is malformed fails.
-/
import SurfaceShading.Shader.Grammar.ModelBlock
import SurfaceShading.Shader.Grammar.PassBlock
import SurfaceShading.Shader.Grammar.PropertyLine

namespace SurfaceShading.Grammar

/-- Looks for the keyword `Shader` and reads the string after it. -/
def findShader (s : Span) : Except Failure (List Char × Span) :=
  match s.next with
  | .finished => .error ⟨s.start + s.size, .missingShader⟩
  | .broken failure => .error failure
  | .string rest => findShader rest
  | .other _ _ rest => findShader rest
  | .name _ text rest =>
    if text = "Shader" then
      match rest.val.quoted with
      | .ok (name, after) => .ok (name, after.val)
      | .error failure => .error failure
    else findShader rest
  termination_by s.size
  decreasing_by all_goals exact rest.property

/-- What has been read of a shader's block. -/
structure Draft where
  queue : Option RenderQueue
  properties : List Property
  passes : List PassDraft
  model : Option ShadingModel
  dropped : List Failure
  deriving Repr, DecidableEq

/-- Nothing read yet. -/
def Draft.empty : Draft := ⟨none, [], [], none, []⟩

/-- Takes in a shading-model block. The last one that is well formed counts. -/
def Draft.addModel (draft : Draft) (body : Span) : Draft :=
  match readModel body with
  | .ok model => { draft with model := some model }
  | .error failure => { draft with dropped := draft.dropped ++ [failure] }

/-- Reads declarations to the end of the region or the first failure. -/
def readBody (draft : Draft) (s : Span) : Draft × Option Failure :=
  match s.next with
  | .finished => (draft, none)
  | .broken failure => (draft, some failure)
  | .string rest => readBody draft rest
  | .other _ _ rest => readBody draft rest
  | .name position text rest =>
    match text with
    | "RenderQueue" =>
      match readQueue position rest with
      | .error failure => (draft, some failure)
      | .ok (queue, after) => readBody { draft with queue := some queue } after
    | "Properties" =>
      match rest.val.block with
      | .error failure => (draft, some failure)
      | .ok block =>
        match readProperties block.body with
        | .error failure => (draft, some failure)
        | .ok properties =>
          readBody { draft with properties := draft.properties ++ properties } block.after
    | "ShadingModel" =>
      match rest.val.block with
      | .error failure => (draft, some failure)
      | .ok block => readBody (draft.addModel block.body) block.after
    | "Pass" =>
      match rest.val.block with
      | .error failure => (draft, some failure)
      | .ok block =>
        match readPass block.body with
        | .error failure => (draft, some failure)
        | .ok pass => readBody { draft with passes := draft.passes ++ [pass] } block.after
    | _ => readBody draft rest
  termination_by s.size
  decreasing_by
    all_goals first
      | exact rest.property
      | exact Nat.lt_trans after.property rest.property
      | exact Nat.lt_trans block.after.property rest.property

/-- The definition of a draft. Passes without a queue are drawn in the shader's. -/
def Draft.finish (draft : Draft) (name : String) : Definition :=
  let queue := draft.queue.getD .forward
  ⟨name, queue, draft.properties, draft.passes.mapIdx fun i p => p.finish queue i, draft.model⟩

/-- What reading a text gives: the shading models that were dropped, each with the name of the
shader, and the definition or an error. -/
structure Reading where
  dropped : List (String × ParseError)
  result : Except ParseError Definition

/-- Reads the text of a shader. -/
def read (text : List Char) : Reading :=
  match findShader (.whole text) with
  | .error failure => ⟨[], .error (failure.toError text)⟩
  | .ok (nameChars, rest) =>
    let name := String.ofList nameChars
    if (Text.trim nameChars).isEmpty then
      ⟨[], .error (Failure.toError text ⟨rest.start, .emptyName⟩)⟩
    else
      match rest.block with
      | .error failure => ⟨[], .error (failure.toError text)⟩
      | .ok block =>
        let (draft, failure?) := readBody .empty block.body
        let dropped := draft.dropped.map fun failure => (name, failure.toError text)
        match failure? with
        | some failure => ⟨dropped, .error (failure.toError text)⟩
        | none =>
          if draft.passes.isEmpty then
            ⟨dropped, .error (Failure.toError text ⟨block.body.val.start, .noPasses name⟩)⟩
          else ⟨dropped, .ok (draft.finish name)⟩

end SurfaceShading.Grammar

namespace SurfaceShading

/-- The definition that a text declares. -/
def Definition.parse (text : String) : Except ParseError Definition :=
  (Grammar.read text.toList).result

end SurfaceShading
