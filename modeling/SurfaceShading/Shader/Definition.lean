/-
  What the text of a shader declares.
-/
import SurfaceShading.Shader.Property

namespace SurfaceShading

/-- How a shader is drawn: directly, or into the geometry buffer and lit afterwards. -/
inductive RenderQueue where
  | forward
  | deferred
  deriving Repr, DecidableEq, Inhabited

namespace RenderQueue

def name : RenderQueue → String
  | forward => "Forward"
  | deferred => "Deferred"

/-- The queue of a name. -/
def ofName? (s : String) : Option RenderQueue :=
  if s = "Forward" then some forward
  else if s = "Deferred" then some deferred
  else none

end RenderQueue

/-- A vertex and a fragment program over one piece of native code. -/
structure Pass where
  name : String
  queue : RenderQueue
  vertex : String
  fragment : String
  body : String
  deriving Repr, DecidableEq

/-- A reflectance function that a shader contributes to the shared lighting pass: its number,
the expression that the dispatch returns, and the code that the expression needs. -/
structure ShadingModel where
  id : UInt32
  call : String
  body : String
  deriving Repr, DecidableEq

/-- A parsed shader. -/
structure Definition where
  name : String
  queue : RenderQueue
  properties : List Property
  passes : List Pass
  model : Option ShadingModel
  deriving Repr, DecidableEq

/-- The property of a name. -/
def Definition.property? (d : Definition) (name : String) : Option Property :=
  d.properties.find? fun p => p.name == name

end SurfaceShading
