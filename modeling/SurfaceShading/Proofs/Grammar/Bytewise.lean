/-
  Reading the text of a shader by byte offsets. A region is given by the offsets of its start and
  its end; every byte that is looked at and every slice that is cut is checked, a depth is not
  allowed below zero, and each loop has as many rounds as there are bytes left, and one more.
  Whatever breaks a rule ends the reading with a fault.
-/
import SurfaceShading.Proofs.Text.Offsets
import SurfaceShading.Shader.Grammar.Reader

namespace SurfaceShading.Grammar.Bytewise

open Text

/-- A step that fails where its offset says. -/
abbrev Scan (α : Type) := Except (Stop Failure) α

def fail {α : Type} (position : Nat) (cause : ParseCause) : Scan α :=
  .error (.failure ⟨position, cause⟩)

/-- A step without offsets. -/
def lift {ε α : Type} (x : Except ε α) : Except (Stop ε) α := x.mapError .failure

/-! ## Pieces -/

/-- Passes over blanks and comments. What a slash belongs to is told by the byte behind it in the
whole text. -/
def skipTrivia (text : List Char) (stop : Nat) : Nat → Nat → Scan Nat
  | 0, _ => .error (.fault .stalled)
  | rounds + 1, pos =>
    if pos < stop then do
      let c ← byteAt text pos
      let next := (units text)[pos + 1]?
      if isAsciiBlank c then skipTrivia text stop rounds (pos + 1)
      else if c = '/' ∧ next = some '/' then do
        let rest ← byteSlice text pos stop
        match rest.findIdx? (· = '\n') with
        | some i => skipTrivia text stop rounds (pos + i + 1)
        | none => skipTrivia text stop rounds stop
      else if c = '/' ∧ next = some '*' then do
        let rest ← slice text (pos + 2) stop
        match find ['*', '/'] rest with
        | some i => skipTrivia text stop rounds (pos + 2 + i + 2)
        | none => skipTrivia text stop rounds stop
      else .ok pos
    else .ok pos

def trivia (text : List Char) (stop pos : Nat) : Scan Nat :=
  skipTrivia text stop (stop - pos + 1) pos

/-- The byte at hand, if the region has one. -/
def peek (text : List Char) (stop pos : Nat) : Scan (Option Char) :=
  if pos < stop then (byteAt text pos).map some else .ok none

/-- Passes over characters of a name. -/
def skipName {ε : Type} (text : List Char) (stop : Nat) : Nat → Nat → Except (Stop ε) Nat
  | 0, _ => .error (.fault .stalled)
  | rounds + 1, pos =>
    if pos < stop then do
      let c ← byteAt text pos
      if isNameChar c then skipName text stop rounds (pos + 1) else .ok pos
    else .ok pos

/-- A name and what follows it. -/
def name {ε : Type} (text : List Char) (stop pos : Nat) : Except (Stop ε) (List Char × Nat) := do
  let after ← skipName text stop (stop - pos + 1) pos
  let word ← slice text pos after
  .ok (word, after)

/-- What ends a string. -/
def endsString (c : Char) : Bool := c = '"' || c = '\n'

/-- The content of a string and what follows it. -/
def quoted (text : List Char) (stop pos : Nat) : Scan (List Char × Nat) := do
  let pos ← trivia text stop pos
  if (← peek text stop pos) = some '"' then do
    let rest ← byteSlice text (pos + 1) stop
    match rest.findIdx? endsString with
    | none => fail pos .unterminatedString
    | some i => do
      if (← byteAt text (pos + 1 + i)) = '"' then do
        let content ← slice text (pos + 1) (pos + 1 + i)
        .ok (content, pos + 1 + i + 1)
      else fail pos .unterminatedString
  else fail pos .expectedString

/-- Where the group is closed that the first opening mark opens, at a depth of groups. -/
def matching {ε : Type} (opener closer : Char) : Nat → List Char → Except (Stop ε) (Option Nat)
  | _, [] => .ok none
  | depth, c :: cs =>
    if c = opener then (matching opener closer (depth + 1) cs).map (·.map (· + 1))
    else if c = closer then
      match depth with
      | 0 => .error (.fault .belowZero)
      | 1 => .ok (some 0)
      | depth + 1 => (matching opener closer depth cs).map (·.map (· + 1))
    else (matching opener closer depth cs).map (·.map (· + 1))

/-- The inside of the first block of a region, from its start to its end. -/
def block (text : List Char) (stop pos : Nat) : Scan (Nat × Nat) := do
  let rest ← byteSlice text pos stop
  match rest.findIdx? (· = '\x7b') with
  | none => fail pos .expectedBlock
  | some i => do
    let group ← byteSlice text (pos + i) stop
    match ← matching '\x7b' '\x7d' 0 group with
    | none => fail (pos + i) .unmatchedBlock
    | some n => .ok (pos + i + 1, pos + i + n)

/-! ## Scanning for names -/

/-- What comes next in a region. A byte that starts no piece is passed over alone. -/
inductive Piece where
  | finished
  | string (after : Nat)
  | name (position : Nat) (text : String) (after : Nat)
  | other (after : Nat)

def next (text : List Char) (stop pos : Nat) : Scan Piece := do
  let pos ← trivia text stop pos
  match ← peek text stop pos with
  | none => .ok .finished
  | some c =>
    if c = '"' then do
      let (_, after) ← quoted text stop pos
      .ok (.string after)
    else if isNameStart c then do
      let (word, after) ← name text stop pos
      .ok (.name pos (String.ofList word) after)
    else .ok (.other (pos + 1))

/-- What a name at hand leads to: the scan is done, or goes on. -/
inductive Move (σ β : Type) where
  | done (result : β)
  | more (state : σ) (pos : Nat)

/-- A loop over the pieces of a region that acts on names. -/
structure Scanner (ε σ β : Type) where
  fails : σ → Failure → ε
  finish : σ → Except (Stop ε) β
  act : σ → Nat → String → Nat → Except (Stop ε) (Move σ β)

def Scanner.loop {ε σ β : Type} (r : Scanner ε σ β) (text : List Char) (stop : Nat) :
    Nat → σ → Nat → Except (Stop ε) β
  | 0, _, _ => .error (.fault .stalled)
  | rounds + 1, state, pos => do
    match ← (next text stop pos).mapError (Stop.map (r.fails state)) with
    | .finished => r.finish state
    | .string after => r.loop text stop rounds state after
    | .other after => r.loop text stop rounds state after
    | .name position word after =>
      match ← r.act state position word after with
      | .done result => .ok result
      | .more state pos => r.loop text stop rounds state pos

def Scanner.run {ε σ β : Type} (r : Scanner ε σ β) (text : List Char) (stop : Nat) (state : σ)
    (pos : Nat) : Except (Stop ε) β :=
  r.loop text stop (stop - pos + 1) state pos

/-! ## Properties -/

/-- Reads attributes. -/
def attributesFrom (text : List Char) : Nat → Property → Nat → Except (Stop PropertyFault) Property
  | 0, _, _ => .error (.fault .stalled)
  | rounds + 1, p, pos =>
    if pos < utf8Length text then do
      let c ← byteAt text pos
      if isAsciiBlank c || c == ',' then attributesFrom text rounds p (pos + 1)
      else if isNameStart c then do
        let (word, after) ← name text (utf8Length text) pos
        let key := String.ofList word
        if (units text)[after]? = some '(' then do
          let group ← byteSlice text after (utf8Length text)
          match ← matching '(' ')' 0 group with
          | some n => do
            let value ← slice text (after + 1) (after + n)
            let p ← lift (withAttribute p key value)
            attributesFrom text rounds p (after + n + 1)
          | none => .error (.failure (.unclosed key))
        else .error (.failure (.expectedParenthesis key))
      else .error (.failure (.unexpected c))
    else .ok p

def attributes (p : Property) (text : List Char) : Except (Stop PropertyFault) Property :=
  attributesFrom text (utf8Length text + 1) p 0

/-- The offset of the last of some character. -/
def findLast (c : Char) (text : List Char) : Option Nat :=
  if c ∈ text then
    some (offset text (text.length - 1 - (text.reverse.takeWhile (· ≠ c)).length))
  else none

/-- Cuts a declaration. -/
def cutAttributes (line : List Char) : Except (Stop PropertyFault) (List Char × List Char) :=
  match find ['\x7b'] line with
  | some opening =>
    match findLast '\x7d' line with
    | some closing =>
      if opening < closing then do
        let tail ← slice line (closing + 1) (utf8Length line)
        let trailing := trim tail
        if trailing.isEmpty || trailing == [';'] then do
          let head ← slice line 0 opening
          let inside ← slice line (opening + 1) closing
          .ok (head, inside)
        else .error (.failure (.trailing (String.ofList trailing)))
      else .error (.failure .unmatchedOpen)
    | none => .error (.failure .unmatchedOpen)
  | none =>
    if line.contains '\x7d' then .error (.failure .unmatchedClose)
    else .ok (dropSemicolons (trimEnd line), [])

/-- Reads a declaration. -/
def declaration (line : List Char) : Except (Stop PropertyFault) Property := do
  let (head, listed) ← cutAttributes line
  match words head with
  | [] => .error (.failure .missingType)
  | typeWord :: rest =>
    let typeName := String.ofList typeWord
    match PropertyType.ofName? typeName, rest with
    | none, _ => .error (.failure (.unknownType typeName))
    | some _, [] => .error (.failure (.missingName typeName))
    | some type, [word] =>
      if isName word then attributes (.plain (String.ofList word) type) listed
      else .error (.failure (.invalidName (String.ofList word)))
    | some _, word :: extra :: _ =>
      .error (.failure (.extraWord (String.ofList extra) (String.ofList word)))

/-- The lines of a region, each with its offset. -/
def linesAt (start : Nat) : List (List Char) → List Span
  | [] => []
  | line :: lines => ⟨start, line⟩ :: linesAt (start + utf8Length line + 1) lines

def declarations (seen : List Property) : List Span → Scan (List Property)
  | [] => .ok seen
  | line :: lines =>
    match after? propertyMark (trim line.chars) with
    | none => declarations seen lines
    | some rest => do
      let p ← (declaration (trim rest)).mapError
        (Stop.map fun fault => ⟨line.start, .property fault⟩)
      if seen.any fun q => q.name == p.name then fail line.start (.duplicateProperty p.name)
      else declarations (seen ++ [p]) lines

/-- Reads the inside of a `Properties` block. -/
def properties (text : List Char) (start stop : Nat) : Scan (List Property) := do
  let region ← slice text start stop
  declarations [] (linesAt start (splitAtChar '\n' region))

/-! ## Shading models -/

/-- Code from its first to its last line that is not blank. -/
def trimLines {ε : Type} (code : List Char) : Except (Stop ε) (List Char) :=
  let all := lines code
  match all.findIdx? (!isBlankLine ·) with
  | none => .ok []
  | some first =>
    let last := ((all.reverse.findIdx? (!isBlankLine ·)).map (all.length - 1 - ·)).getD first
    if first ≤ last + 1 ∧ last < all.length then
      .ok (joinWith ['\n'] ((all.take (last + 1)).drop first))
    else .error (.fault .outOfRange)

/-- Reads assignments and blocks. -/
def entriesFrom (text : List Char) (stop : Nat) : Nat → ModelDraft → Nat → Scan ModelDraft
  | 0, _, _ => .error (.fault .stalled)
  | rounds + 1, draft, pos => do
    let pos ← trivia text stop pos
    match ← peek text stop pos with
    | none => .ok draft
    | some c =>
      if isNameStart c then do
        let (word, after) ← name text stop pos
        let key := String.ofList word
        let sign ← trivia text stop after
        match ← peek text stop sign with
        | some '=' => do
          let rest ← byteSlice text (sign + 1) stop
          match rest.findIdx? (· = ';') with
          | none => fail pos (.model (.expectedSemicolon key))
          | some i => do
            let value ← slice text (sign + 1) (sign + 1 + i)
            let draft ← (draft.assign key (trim value)).mapError
              fun fault => .failure ⟨pos, .model fault⟩
            entriesFrom text stop rounds draft (sign + 1 + i + 1)
        | some '\x7b' =>
          if key = "BRDF" then do
            let (start, close) ← block text stop sign
            let code ← slice text start close
            let body ← trimLines code
            entriesFrom text stop rounds { draft with body := some (String.ofList body) } (close + 1)
          else fail pos (.model (.expectedValue key))
        | _ => fail pos (.model (.expectedValue key))
      else fail pos (.model (.unexpected c))

/-- Reads the inside of a `ShadingModel` block. -/
def model (text : List Char) (start stop : Nat) : Scan ShadingModel := do
  let draft ← entriesFrom text stop (stop - start + 1) ⟨none, none, none⟩ start
  match draft.id, draft.call, draft.body with
  | none, _, _ => fail start (.model .missingId)
  | some _, none, _ => fail start (.model .missingCall)
  | some _, some _, none => fail start (.model .missingBody)
  | some id, some call, some body => .ok ⟨id, call, body⟩

/-! ## Passes -/

def queue (text : List Char) (stop position pos : Nat) : Scan (RenderQueue × Nat) := do
  let (word, after) ← quoted text stop pos
  let name := String.ofList word
  match RenderQueue.ofName? name with
  | some queue => .ok (queue, after)
  | none => fail position (.unknownQueue name)

/-- Reads a header. -/
def headerScanner (text : List Char) (stop : Nat) : Scanner Failure Header Header where
  fails _ failure := failure
  finish header := .ok header
  act header position word pos :=
    match word with
    | "Name" => do
      let (content, after) ← quoted text stop pos
      .ok (.more { header with name := some (String.ofList content) } after)
    | "RenderQueue" => do
      let (queue, after) ← queue text stop position pos
      .ok (.more { header with queue := some queue } after)
    | _ => .ok (.more header pos)

/-- Reads the inside of a `Pass` block. -/
def pass (text : List Char) (start stop : Nat) : Scan PassDraft := do
  let region ← slice text start stop
  match find programStart region with
  | none => fail start .missingProgram
  | some begin => do
    let codeStart := begin + utf8Length programStart
    let tail ← slice region codeStart (utf8Length region)
    match find programEnd tail with
    | none => fail (start + begin) .unclosedProgram
    | some length => do
      let header ← (headerScanner text (start + begin)).run text (start + begin) ⟨none, none⟩ start
      let code ← slice region codeStart (codeStart + length)
      let program ← lift (readProgram (linesAt (start + codeStart) (splitAtChar '\n' code)))
      match program.vertex, program.fragment with
      | none, _ => fail (start + begin) (.missingPragma .vertex)
      | some _, none => fail (start + begin) (.missingPragma .fragment)
      | some vertex, some fragment => do
        let body ← trimLines (joinWith ['\n'] program.kept)
        .ok ⟨header, vertex, fragment, String.ofList body⟩

/-! ## Shaders -/

/-- Looks for the keyword `Shader` and reads the string after it. -/
def shaderScanner (text : List Char) : Scanner Failure Unit (List Char × Nat) where
  fails _ failure := failure
  finish _ := fail (utf8Length text) .missingShader
  act _ _ word pos :=
    if word = "Shader" then do
      let found ← quoted text (utf8Length text) pos
      .ok (.done found)
    else .ok (.more () pos)

/-- A step in the block of a shader. What has been read stays known when it fails. -/
def inBody {α : Type} (draft : Draft) (x : Scan α) : Except (Stop (Draft × Failure)) α :=
  x.mapError (Stop.map (draft, ·))

/-- Reads the declarations of a shader. -/
def bodyScanner (text : List Char) (stop : Nat) : Scanner (Draft × Failure) Draft Draft where
  fails draft failure := (draft, failure)
  finish draft := .ok draft
  act draft position word pos :=
    match word with
    | "RenderQueue" => do
      let (queue, after) ← inBody draft (queue text stop position pos)
      .ok (.more { draft with queue := some queue } after)
    | "Properties" => do
      let (start, close) ← inBody draft (block text stop pos)
      let listed ← inBody draft (properties text start close)
      .ok (.more { draft with properties := draft.properties ++ listed } (close + 1))
    | "ShadingModel" => do
      let (start, close) ← inBody draft (block text stop pos)
      match model text start close with
      | .ok model => .ok (.more { draft with model := some model } (close + 1))
      | .error (.failure failure) =>
        .ok (.more { draft with dropped := draft.dropped ++ [failure] } (close + 1))
      | .error (.fault fault) => .error (.fault fault)
    | "Pass" => do
      let (start, close) ← inBody draft (block text stop pos)
      let pass ← inBody draft (pass text start close)
      .ok (.more { draft with passes := draft.passes ++ [pass] } (close + 1))
    | _ => .ok (.more draft pos)

/-- A failure with the line of its offset, or of the end of the text. -/
def errorAt (text : List Char) (failure : Failure) : Except Fault ParseError :=
  match byteSlice text 0 (min failure.position (utf8Length text)) with
  | .ok before => .ok ⟨before.count '\n' + 1, failure.cause⟩
  | .error (.fault fault) => .error fault
  | .error (.failure e) => Empty.elim e

/-- What a reading that ends early gives. -/
def failed (text : List Char) (dropped : List (String × ParseError)) :
    Stop Failure → Except Fault Reading
  | .fault fault => .error fault
  | .failure failure => do
    let error ← errorAt text failure
    .ok ⟨dropped, .error error⟩

/-- Reads the text of a shader. -/
def read (text : List Char) : Except Fault Reading :=
  match (shaderScanner text).run text (utf8Length text) () 0 with
  | .error stopped => failed text [] stopped
  | .ok (nameChars, pos) =>
    let name := String.ofList nameChars
    if (trim nameChars).isEmpty then failed text [] (.failure ⟨pos, .emptyName⟩)
    else
      match block text (utf8Length text) pos with
      | .error stopped => failed text [] stopped
      | .ok (start, close) =>
        match (bodyScanner text close).run text close .empty start with
        | .error (.fault fault) => .error fault
        | .error (.failure (draft, failure)) => do
          let dropped ← draft.dropped.mapM fun failure => do
            let error ← errorAt text failure
            .ok (name, error)
          failed text dropped (.failure failure)
        | .ok draft => do
          let dropped ← draft.dropped.mapM fun failure => do
            let error ← errorAt text failure
            .ok (name, error)
          if draft.passes.isEmpty then failed text dropped (.failure ⟨start, .noPasses name⟩)
          else .ok ⟨dropped, .ok (draft.finish name)⟩

end SurfaceShading.Grammar.Bytewise
