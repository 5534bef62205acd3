/-
  The texts of shaders by name: registered ones first, then files of a directory.
-/
import SurfaceShading.Files.Disk
import SurfaceShading.Shader.Grammar.Cause

namespace SurfaceShading

/-- Where the texts of shaders come from. -/
structure ShaderSources where
  registered : OrderedMap String String
  directory : Option String
  deriving Repr, DecidableEq

namespace ShaderSources

/-- The extension of shader files. -/
def extension : String := "shader"

/-- No registered text. -/
def new (directory : Option String) : ShaderSources := ⟨.empty, directory⟩

/-- Registers a text, in place of one of the same name. -/
def register (sources : ShaderSources) (name text : String) : ShaderSources :=
  { sources with registered := sources.registered.insert name text }

/-- The file of a name. -/
def path? (sources : ShaderSources) (name : String) : Option String :=
  sources.directory.map fun dir => Path.join dir (name ++ "." ++ extension)

/-- The text of a name. -/
def read (sources : ShaderSources) (disk : Disk) (name : String) : Except SourceError String :=
  match sources.registered.get? name with
  | some text => .ok text
  | none =>
    match sources.path? name with
    | none => .error (.notFound name)
    | some path =>
      match disk.readText path with
      | .ok text => .ok text
      | .error .notFound => .error (.notFound name)
      | .error e => .error (.file e)

/-- The name of the shader in a file, if the file has the extension, in any case. -/
def shaderName? (file : String) : Option String :=
  match Path.splitName file with
  | (stem, some ext) =>
    if String.ofList (ext.toList.map Char.toLower) = extension then some stem else none
  | (_, none) => none

/-- The names of the shaders in the directory; none if there is no such directory. -/
def listed (sources : ShaderSources) (disk : Disk) : List String :=
  match sources.directory with
  | none => []
  | some dir =>
    match disk.list dir with
    | .ok files => files.filterMap shaderName?
    | .error _ => []

/-- All known names in ascending order. -/
def names (sources : ShaderSources) (disk : Disk) : List String :=
  let known : OrderedMap String Unit := sources.registered.mapValues fun _ _ => ()
  ((sources.listed disk).foldl (fun m name => m.insert name ()) known).keys

end ShaderSources

end SurfaceShading
