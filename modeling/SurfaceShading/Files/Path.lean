/-
  Paths as texts, and the components by which they are compared, joined and taken apart.
-/
import SurfaceShading.Text.Blank

namespace SurfaceShading.Path

/-- The steps of a path as they are written, without empty ones. -/
def steps (path : String) : List String :=
  ((Text.splitAtChar '/' path.toList).filter (! ·.isEmpty)).map String.ofList

def isAbsolute (path : String) : Bool := path.toList.head? == some '/'

def endsWithSlash (path : String) : Bool := path.toList.getLast? == some '/'

/-- The steps that count. Staying in place does so only at the start of a relative path. -/
def components (path : String) : List String :=
  match steps path with
  | [] => []
  | first :: rest =>
    let kept := rest.filter (· ≠ ".")
    if first = "." ∧ isAbsolute path then kept else first :: kept

/-- The text of a path that two paths share iff they have the same components. -/
def canonical (path : String) : String :=
  let body := String.intercalate "/" (components path)
  if isAbsolute path then "/" ++ body else body

/-- A path below another. An absolute path is not put below anything. -/
def join (base path : String) : String :=
  if isAbsolute path || base.isEmpty then path
  else if endsWithSlash base then base ++ path
  else base ++ "/" ++ path

/-- The last component, if it is a name. -/
def fileName? (path : String) : Option String :=
  match (components path).getLast? with
  | some name => if name = ".." ∨ name = "." then none else some name
  | none => none

/-- The path without its last component; nothing is above the empty path and the root. -/
def parent? (path : String) : Option String :=
  match components path with
  | [] => none
  | cs =>
    let body := String.intercalate "/" cs.dropLast
    some (if isAbsolute path then "/" ++ body else body)

/-- A file name cut at its last dot: stem and extension. A dot at the start cuts nothing. -/
def splitName (name : String) : String × Option String :=
  let cs := name.toList
  let ext := (cs.reverse.takeWhile (· ≠ '.')).reverse
  let stem := cs.take (cs.length - ext.length - 1)
  if cs.length = ext.length ∨ stem.isEmpty then (name, none)
  else (String.ofList stem, some (String.ofList ext))

end SurfaceShading.Path
