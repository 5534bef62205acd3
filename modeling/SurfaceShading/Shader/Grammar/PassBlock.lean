/-
  Pass blocks: a header with name and queue, and native code between two marks, in which
  pragmas name the entry points.
-/
import SurfaceShading.Shader.Definition
import SurfaceShading.Shader.Grammar.Token

namespace SurfaceShading.Grammar

/-- The mark before the native code of a pass. -/
def programStart : List Char := "HLSLPROGRAM".toList

/-- The mark after the native code of a pass. -/
def programEnd : List Char := "ENDHLSL".toList

/-- The word at the start of a pragma. -/
def pragmaMark : List Char := "#pragma".toList

/-- The queue that a quoted string names. A wrong name is reported where the keyword before it
stands. -/
def readQueue (position : Nat) (s : Span) : Except Failure (RenderQueue × Shorter s.size) := do
  let (text, rest) ← s.quoted
  let name := String.ofList text
  match RenderQueue.ofName? name with
  | some queue => .ok (queue, rest)
  | none => .error ⟨position, .unknownQueue name⟩

/-- What the header of a pass gives. -/
structure Header where
  name : Option String
  queue : Option RenderQueue
  deriving Repr, DecidableEq

/-- Reads a header. Of two names or queues the later holds. -/
def readHeader (header : Header) (s : Span) : Except Failure Header :=
  match s.next with
  | .finished => .ok header
  | .broken failure => .error failure
  | .string rest => readHeader header rest
  | .other _ _ rest => readHeader header rest
  | .name position text rest =>
    match text with
    | "Name" =>
      match rest.val.quoted with
      | .ok (name, after) => readHeader { header with name := some (String.ofList name) } after
      | .error failure => .error failure
    | "RenderQueue" =>
      match readQueue position rest with
      | .ok (queue, after) => readHeader { header with queue := some queue } after
      | .error failure => .error failure
    | _ => readHeader header rest
  termination_by s.size
  decreasing_by
    all_goals first
      | exact rest.property
      | exact Nat.lt_trans after.property rest.property

/-- The stage whose entry point a line names, and the name, if one is there. -/
def entryPragma? (line : List Char) : Option (Stage × Option String) :=
  match Text.after? pragmaMark (Text.trim line) with
  | none => none
  | some rest =>
    match (Text.words rest).map String.ofList with
    | "vertex" :: names => some (.vertex, names.head?)
    | "fragment" :: names => some (.fragment, names.head?)
    | _ => none

/-- Native code with its entry points taken out. -/
structure Program where
  vertex : Option String
  fragment : Option String
  kept : List (List Char)
  deriving Repr, DecidableEq

/-- Reads the lines of native code. Of two entry points of a stage the later holds. -/
def readProgram : List Span → Except Failure Program
  | [] => .ok ⟨none, none, []⟩
  | line :: lines =>
    match entryPragma? line.chars with
    | none => do
      let program ← readProgram lines
      .ok { program with kept := line.chars :: program.kept }
    | some (_, none) => .error ⟨line.start, .missingEntryPoint⟩
    | some (.vertex, some entry) => do
      let program ← readProgram lines
      .ok { program with vertex := program.vertex <|> some entry }
    | some (.fragment, some entry) => do
      let program ← readProgram lines
      .ok { program with fragment := program.fragment <|> some entry }

/-- A pass whose name and queue may be left to the shader. -/
structure PassDraft where
  header : Header
  vertex : String
  fragment : String
  body : String
  deriving Repr, DecidableEq

/-- Reads the inside of a `Pass` block. -/
def readPass (s : Span) : Except Failure PassDraft :=
  match Text.indexOf? programStart s.chars with
  | none => .error ⟨s.start, .missingProgram⟩
  | some start =>
    let tail := s.drop (start + programStart.length)
    match Text.indexOf? programEnd tail.chars with
    | none => .error ⟨s.start + start, .unclosedProgram⟩
    | some length => do
      let header ← readHeader ⟨none, none⟩ (s.take start)
      let program ← readProgram (tail.take length).lines
      match program.vertex, program.fragment with
      | none, _ => .error ⟨s.start + start, .missingPragma .vertex⟩
      | some _, none => .error ⟨s.start + start, .missingPragma .fragment⟩
      | some vertex, some fragment =>
        let body := Text.trimBlankLines (Text.joinWith ['\n'] program.kept)
        .ok ⟨header, vertex, fragment, String.ofList body⟩

namespace PassDraft

/-- The pass of a draft, with its place among the passes and the queue of its shader. -/
def finish (draft : PassDraft) (queue : RenderQueue) (index : Nat) : Pass :=
  ⟨draft.header.name.getD s!"Pass{index}", draft.header.queue.getD queue, draft.vertex,
    draft.fragment, draft.body⟩

end PassDraft

end SurfaceShading.Grammar
