/-
  Everything that can be wrong with the text of a shader, and how it is said.
-/
import SurfaceShading.Files.Disk
import SurfaceShading.Gpu.Descriptor
import SurfaceShading.Text.Quoted

namespace SurfaceShading

/-- Why the text of a shader cannot be had. -/
inductive SourceError where
  | notFound (name : String)
  | file (error : FileError)
  deriving Repr, DecidableEq

def SourceError.message : SourceError → String
  | notFound name => s!"shader not found: {name}"
  | file error => error.message

/-- What can be wrong with the line of a property. -/
inductive PropertyFault where
  | unmatchedOpen
  | unmatchedClose
  | trailing (text : String)
  | missingType
  | unknownType (text : String)
  | missingName (type : String)
  | extraWord (word name : String)
  | invalidName (name : String)
  | unexpected (c : Char)
  | expectedParenthesis (key : String)
  | unclosed (key : String)
  | unknownAttribute (key : String)
  deriving Repr, DecidableEq

def PropertyFault.message : PropertyFault → String
  | unmatchedOpen => "unmatched '\x7b' in property attributes"
  | unmatchedClose => "unmatched '\x7d' in property"
  | trailing text => s!"unexpected {Text.quoted text} after property attributes"
  | missingType => "missing property type"
  | unknownType text => s!"unknown property type {Text.quoted text}"
  | missingName type => s!"missing name for {type} property"
  | extraWord word name =>
    s!"unexpected {Text.quoted word} after property name {Text.quoted name}"
  | invalidName name => s!"{Text.quoted name} is not a valid property name"
  | unexpected c => s!"unexpected '{c}' in property attributes"
  | expectedParenthesis key => s!"expected '(' after {key}"
  | unclosed key => s!"unclosed {key}(...)"
  | unknownAttribute key => s!"unknown property attribute {Text.quoted key}"

/-- What can be wrong inside a shading-model block, its braces and strings apart. -/
inductive ModelFault where
  | unexpected (c : Char)
  | expectedSemicolon (key : String)
  | invalidId (text : String)
  | emptyCall
  | unknownKey (key : String)
  | expectedValue (key : String)
  | missingId
  | missingCall
  | missingBody
  deriving Repr, DecidableEq

def ModelFault.message : ModelFault → String
  | unexpected c => s!"unexpected '{c}' in ShadingModel block"
  | expectedSemicolon key => s!"expected ';' after {key}"
  | invalidId text => s!"invalid shading model id {Text.quoted text}"
  | emptyCall => "empty BRDF expression"
  | unknownKey key => s!"unknown key {Text.quoted key}"
  | expectedValue key => s!"expected '=' or '\x7b' after {key}"
  | missingId => "ShadingModel is missing `shadingmodel = <id>;`"
  | missingCall => "ShadingModel is missing `BRDF = <expr>;`"
  | missingBody => "ShadingModel is missing a `BRDF \x7b ... \x7d` body"

/-- What can be wrong with the text of a shader. -/
inductive ParseCause where
  | missingShader
  | emptyName
  | expectedString
  | unterminatedString
  | expectedBlock
  | unmatchedBlock
  | unknownQueue (text : String)
  | noPasses (shader : String)
  | missingProgram
  | unclosedProgram
  | missingEntryPoint
  | missingPragma (stage : Stage)
  | property (fault : PropertyFault)
  | duplicateProperty (name : String)
  | model (fault : ModelFault)
  | deferredPassCount (shader : String) (count : Nat)
  | unresolvedShared (name : String) (error : SourceError)
  | shared (name : String) (cause : ParseCause)
  deriving Repr, DecidableEq

namespace ParseCause

/-- The pragma that names the entry point of a stage. -/
def pragmaName : Stage → String
  | .vertex => "vertex"
  | .fragment => "fragment"

def message : ParseCause → String
  | missingShader => "missing `Shader \"<name>\"` declaration"
  | emptyName => "shader name is empty"
  | expectedString => "expected a quoted string"
  | unterminatedString => "unterminated string"
  | expectedBlock => "expected '\x7b'"
  | unmatchedBlock => "unmatched '\x7b'"
  | unknownQueue text => s!"unknown render queue {Text.quoted text}"
  | noPasses shader => s!"shader {Text.quoted shader} declares no passes"
  | missingProgram => "pass is missing HLSLPROGRAM"
  | unclosedProgram => "HLSLPROGRAM without matching ENDHLSL"
  | missingEntryPoint => "#pragma is missing its entry point"
  | missingPragma stage => s!"missing #pragma {pragmaName stage}"
  | property fault => fault.message
  | duplicateProperty name => s!"duplicate property {Text.quoted name}"
  | model fault => fault.message
  | deferredPassCount shader count =>
    s!"Deferred shader {Text.quoted shader} must declare exactly one pass, found {count}"
  | unresolvedShared name error =>
    s!"cannot resolve shared shader {Text.quoted name}: {error.message}"
  | shared name cause => s!"shared shader {Text.quoted name}: {cause.message}"

end ParseCause

/-- A cause and the line it belongs to, the first line being 1. -/
structure ParseError where
  line : Nat
  cause : ParseCause
  deriving Repr, DecidableEq

namespace ParseError

def message (e : ParseError) : String := e.cause.message

/-- The message with its line. -/
def display (e : ParseError) : String := s!"line {e.line}: {e.message}"

end ParseError

end SurfaceShading
