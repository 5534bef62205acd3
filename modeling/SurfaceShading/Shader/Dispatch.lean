/-
  The dispatch over shading models: a function of the shared lighting code that evaluates the
  model of a given number.
-/
import SurfaceShading.Shader.Definition

namespace SurfaceShading

/-- The code of the models, and the expression to return for each number. -/
structure Dispatch where
  bodies : List String
  cases : List (UInt32 × String)
  deriving Repr, DecidableEq

namespace Dispatch

/-- The dispatch without models. -/
def empty : Dispatch := ⟨[], []⟩

/-- The code of a model below a line with its number. -/
def bodyText (model : ShadingModel) : String :=
  s!"// Shading model {model.id}\n{model.body}\n"

/-- Adds a model, unless one of the same number is there. -/
def add (dispatch : Dispatch) (model : ShadingModel) : Dispatch :=
  if dispatch.cases.any fun c => c.1 == model.id then dispatch
  else ⟨dispatch.bodies ++ [bodyText model], dispatch.cases ++ [(model.id, model.call)]⟩

/-- The dispatch over a list of models. Of two with one number the first counts. -/
def ofModels (models : List ShadingModel) : Dispatch := models.foldl add empty

/-- The head of the function. -/
def signature : String := "float3 EvaluateShadingModel(uint shadingModel, BRDFInput input)"

/-- The line of one case. -/
def caseLine (c : UInt32 × String) : String := s!"    case {c.1}: return {c.2};\n"

/-- The code of the models, then the function. A number without a model is evaluated by the
standard one. -/
def text (dispatch : Dispatch) : String :=
  String.join (dispatch.bodies.map (· ++ "\n"))
    ++ signature ++ "\n\x7b\n    switch (shadingModel)\n    \x7b\n"
    ++ String.join (dispatch.cases.map caseLine)
    ++ "    default:\n        return StandardBRDF(input);\n    \x7d\n\x7d\n"

end Dispatch

end SurfaceShading
