/-
  The registry of shading models. It is idle, open for registration, or closed while lighting
  passes are generated anew; and it knows whether a model was added since they last were.
-/
import SurfaceShading.Host

namespace SurfaceShading

/-- What the registry is busy with. -/
inductive RegistryState where
  | idle
  | registering
  | regenerating
  deriving Repr, DecidableEq

def RegistryState.name : RegistryState → String
  | idle => "Idle"
  | registering => "Registering"
  | regenerating => "Regenerating"

/-- The registered models by number. -/
structure ModelRegistry where
  entries : OrderedMap UInt32 ShadingModel
  dirty : Bool
  state : RegistryState
  deriving Repr, DecidableEq

namespace ModelRegistry

/-- No model registered. -/
def new : ModelRegistry := ⟨.empty, false, .idle⟩

/-- The models in ascending order of their numbers. -/
def models (r : ModelRegistry) : List ShadingModel := r.entries.values

def get? (r : ModelRegistry) (id : UInt32) : Option ShadingModel := r.entries.get? id

/-- Opens the registry for registration. -/
def beginRegistration (r : ModelRegistry) : Except RegistryConflict ModelRegistry :=
  match r.state with
  | .idle => .ok { r with state := .registering }
  | .registering => .error .alreadyRegistering
  | .regenerating => .error .registerWhileRegenerating

/-- Ends a registration, if one is open. -/
def endRegistration (r : ModelRegistry) : ModelRegistry :=
  if r.state = .registering then { r with state := .idle } else r

/-- Registers a model and says whether its number was new. A number keeps its first model. -/
def register (r : ModelRegistry) (model : ShadingModel) :
    Except RegistryConflict (Bool × ModelRegistry) :=
  if r.state = .regenerating then .error .registerWhileRegenerating
  else
    match r.get? model.id with
    | some _ => .ok (false, r)
    | none => .ok (true, { r with entries := r.entries.insert model.id model, dirty := true })

/-- What is reported when a model is registered. A known model of the same content is not
worth a report. -/
def registerEvents (r : ModelRegistry) (model : ShadingModel) : List Event :=
  if r.state = .regenerating then []
  else
    match r.get? model.id with
    | some known =>
      if known = model then [] else [.modelConflict model.id known.call model.call]
    | none => [.modelRegistered model.id model.call]

/-- Closes the registry while lighting passes are generated. -/
def beginRegeneration (r : ModelRegistry) : Except RegistryConflict ModelRegistry :=
  match r.state with
  | .idle => .ok { r with state := .regenerating }
  | .registering => .error .regenerateWhileRegistering
  | .regenerating => .error .alreadyRegenerating

/-- Ends a generation that brought every lighting pass up to date. -/
def finishRegeneration (r : ModelRegistry) : ModelRegistry :=
  if r.state = .regenerating then { r with dirty := false, state := .idle } else r

/-- Ends a generation that failed. -/
def abortRegeneration (r : ModelRegistry) : ModelRegistry :=
  if r.state = .regenerating then { r with state := .idle } else r

end ModelRegistry

end SurfaceShading
