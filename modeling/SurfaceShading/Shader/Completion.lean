/-
  Completion of deferred shaders. A deferred shader declares its geometry pass alone; the
  lighting pass is the first pass of the shared shader.
-/
import SurfaceShading.Event
import SurfaceShading.Shader.Grammar.Reader
import SurfaceShading.Shader.Sources

namespace SurfaceShading

/-- A result and what is to be reported whatever it is. -/
structure Reported (α : Type) where
  events : List Event
  result : α

namespace Grammar

/-- The events of a reading: each dropped shading model is worth a warning. -/
def Reading.events (r : Reading) : List Event :=
  r.dropped.map fun d => .modelDropped d.1 d.2

end Grammar

namespace Definition

/-- An error of the whole text, reported at its first line. -/
def wholeError (cause : ParseCause) : ParseError := ⟨1, cause⟩

/-- Appends the first pass of the shared shader, which is drawn in the deferred queue. -/
def appendLighting (d : Definition) (shared : String) (source : Except SourceError String) :
    Reported (Except ParseError Definition) :=
  match source with
  | .error e => ⟨[], .error (wholeError (.unresolvedShared shared e))⟩
  | .ok text =>
    let reading := Grammar.read text.toList
    match reading.result with
    | .error e => ⟨reading.events, .error ⟨e.line, .shared shared e.cause⟩⟩
    | .ok template =>
      match template.passes with
      | [] =>
        ⟨reading.events, .error (wholeError (.shared shared (.noPasses shared)))⟩
      | pass :: _ =>
        ⟨reading.events ++ [.lightingAppended d.name pass.name shared],
          .ok { d with passes := d.passes ++ [{ pass with queue := .deferred }] }⟩

/-- Completes a definition: a deferred shader that is not the shared one itself has to declare
exactly one pass and gets the lighting pass. -/
def complete (d : Definition) (shared : String) (source : Except SourceError String) :
    Reported (Except ParseError Definition) :=
  if d.queue = .deferred ∧ d.name ≠ shared then
    if d.passes.length = 1 then d.appendLighting shared source
    else ⟨[], .error (wholeError (.deferredPassCount d.name d.passes.length))⟩
  else ⟨[], .ok d⟩

/-- Reads a text and completes what it declares. -/
def parseComplete (text shared : String) (source : Except SourceError String) :
    Reported (Except ParseError Definition) :=
  let reading := Grammar.read text.toList
  match reading.result with
  | .error e => ⟨reading.events, .error e⟩
  | .ok d =>
    let completed := d.complete shared source
    ⟨reading.events ++ completed.events, completed.result⟩

end Definition

end SurfaceShading
