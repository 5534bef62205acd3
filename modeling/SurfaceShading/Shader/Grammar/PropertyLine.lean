/-
  Property declarations. Each stands on a line of its own, behind a mark that the native
  language takes for a comment: type, name, and attributes between braces.
-/
import SurfaceShading.Shader.Definition
import SurfaceShading.Shader.Grammar.Token

namespace SurfaceShading.Grammar

/-- The mark at the start of a declaration. -/
def propertyMark : List Char := ['/', '/', '#']

/-- Gives a property an attribute, in place of one of the same key. -/
def withAttribute (p : Property) (key : String) (value : List Char) :
    Except PropertyFault Property :=
  let text := some (String.ofList (Text.trim value))
  match key with
  | "default" => .ok { p with default := text }
  | "min" => .ok { p with min := text }
  | "max" => .ok { p with max := text }
  | "ui" => .ok { p with ui := text }
  | _ => .error (.unknownAttribute key)

/-- Reads attributes `key(value)`, with blanks and commas between them. -/
def readAttributes (p : Property) (cs : List Char) : Except PropertyFault Property :=
  match cs with
  | [] => .ok p
  | c :: rest =>
    if Text.isAsciiBlank c || c == ',' then readAttributes p rest
    else if isNameStart c then
      let key := c :: rest.takeWhile isNameChar
      match _hi : rest.drop (key.length - 1) with
      | '(' :: inside =>
        match closing '(' ')' 0 inside with
        | some n => do
          let p ← withAttribute p (String.ofList key) (inside.take n)
          readAttributes p (inside.drop (n + 1))
        | none => .error (.unclosed (String.ofList key))
      | _ => .error (.expectedParenthesis (String.ofList key))
    else .error (.unexpected (Text.leadByteChar c))
  termination_by cs.length
  decreasing_by
    · simp
    · have h := congrArg List.length _hi
      simp only [List.length_drop, List.length_cons] at h ⊢
      omega

/-- Drops the semicolons at the end. -/
def dropSemicolons (cs : List Char) : List Char := (cs.reverse.dropWhile (· = ';')).reverse

/-- Cuts a declaration into what stands before its braces, and what stands between the first
and the last of them. -/
def splitAttributes (line : List Char) : Except PropertyFault (List Char × List Char) :=
  let head := line.takeWhile (· ≠ '\x7b')
  match line.drop head.length with
  | [] =>
    if line.contains '\x7d' then .error .unmatchedClose
    else .ok (dropSemicolons (Text.trimEnd line), [])
  | _ :: inside =>
    if inside.contains '\x7d' then
      let tail := (inside.reverse.takeWhile (· ≠ '\x7d')).reverse
      let trailing := Text.trim tail
      if trailing.isEmpty || trailing == [';'] then
        .ok (head, inside.take (inside.length - tail.length - 1))
      else .error (.trailing (String.ofList trailing))
    else .error .unmatchedOpen

/-- Reads a declaration from what follows its mark. -/
def readDeclaration (line : List Char) : Except PropertyFault Property := do
  let (head, attributes) ← splitAttributes line
  match Text.words head with
  | [] => .error .missingType
  | typeWord :: rest =>
    let typeName := String.ofList typeWord
    match PropertyType.ofName? typeName, rest with
    | none, _ => .error (.unknownType typeName)
    | some _, [] => .error (.missingName typeName)
    | some type, [name] =>
      if isName name then readAttributes (.plain (String.ofList name) type) attributes
      else .error (.invalidName (String.ofList name))
    | some _, name :: word :: _ =>
      .error (.extraWord (String.ofList word) (String.ofList name))

/-- The declaration of a line, if the line holds one. -/
def declaration? (line : List Char) : Option (Except PropertyFault Property) :=
  (Text.after? propertyMark (Text.trim line)).map fun rest => readDeclaration (Text.trim rest)

/-- Reads the declarations of the lines of a block, after those already read. No two of one
block have one name. -/
def readDeclarations (seen : List Property) : List Span → Except Failure (List Property)
  | [] => .ok seen
  | line :: lines =>
    match declaration? line.chars with
    | none => readDeclarations seen lines
    | some (.error fault) => .error ⟨line.start, .property fault⟩
    | some (.ok p) =>
      if seen.any fun q => q.name == p.name then
        .error ⟨line.start, .duplicateProperty p.name⟩
      else readDeclarations (seen ++ [p]) lines

/-- Reads the inside of a `Properties` block. -/
def readProperties (s : Span) : Except Failure (List Property) := readDeclarations [] s.lines

end SurfaceShading.Grammar
