/-
  Errors of loading, compiling and binding shaders and materials.
-/
import SurfaceShading.Gpu.Error
import SurfaceShading.Material.Value
import SurfaceShading.Shader.Grammar.Cause

namespace SurfaceShading

/-- Why the registry of shading models refuses an operation. -/
inductive RegistryConflict where
  | alreadyRegistering
  | registerWhileRegenerating
  | regenerateWhileRegistering
  | alreadyRegenerating
  deriving Repr, DecidableEq

def RegistryConflict.message : RegistryConflict → String
  | alreadyRegistering => "registration already in progress"
  | registerWhileRegenerating => "cannot register while regenerating"
  | regenerateWhileRegistering => "cannot regenerate while registration is open"
  | alreadyRegenerating => "regeneration already in progress"

/-- What can go wrong. A pass is given by its index. -/
inductive Error where
  | parse (shader : String) (error : ParseError)
  | compile (shader : String) (pass : Nat) (stage : Stage) (diagnostic : String)
      (artifact : Option String)
  | layout (shader : String) (size limit : UInt32)
  | unsupportedPass (shader : String) (pass : Nat)
  | notCompiled (shader : String) (pass : Nat)
  | shaderNotFound (name : String)
  | materialNotFound (name : String)
  | unknownParameter (shader parameter : String)
  | typeMismatch (parameter : String) (expected actual : PropertyType)
  | notFinite (parameter : String) (value : Value)
  | malformedMaterial (path : String)
  | registryBusy (conflict : RegistryConflict)
  | device (error : DeviceError)
  | file (error : FileError)
  deriving Repr, DecidableEq

namespace Error

/-- The error of a source that cannot be had. -/
def ofSource : SourceError → Error
  | .notFound name => shaderNotFound name
  | .file error => file error

/-- Whether a bulk load has to stop at the error. Errors of a single parameter do not count. -/
def isFatal : Error → Bool
  | unknownParameter _ _ => false
  | typeMismatch _ _ _ => false
  | notFinite _ _ => false
  | _ => true

def message : Error → String
  | parse shader error => s!"failed to parse shader {Text.quoted shader}: {error.display}"
  | compile shader pass stage diagnostic _ =>
    s!"failed to compile {stage.name} stage of pass {pass} in shader {Text.quoted shader}: "
      ++ diagnostic
  | layout shader size limit =>
    s!"constant buffer of shader {Text.quoted shader} needs {size} bytes, limit is {limit}"
  | unsupportedPass shader pass =>
    s!"shader {Text.quoted shader} has no pipeline state for pass {pass}"
  | notCompiled shader pass => s!"pass {pass} of shader {Text.quoted shader} is not compiled"
  | shaderNotFound name => s!"shader not found: {name}"
  | materialNotFound name => s!"material not found: {name}"
  | unknownParameter shader parameter =>
    s!"shader {Text.quoted shader} has no parameter named {Text.quoted parameter}"
  | typeMismatch parameter expected actual =>
    s!"parameter {Text.quoted parameter} expects {expected.name}, got {actual.name}"
  | notFinite parameter value =>
    s!"parameter {Text.quoted parameter} must be finite, got {value.describe}"
  | malformedMaterial path => s!"invalid material file {Text.quoted path}"
  | registryBusy conflict => s!"shading model registry is busy: {conflict.message}"
  | device error => error.message
  | file error => error.message

end Error

end SurfaceShading
