/-
  Shading-model blocks: a number, the expression that calls the model, and its code.
-/
import SurfaceShading.Material.Value
import SurfaceShading.Shader.Definition
import SurfaceShading.Shader.Grammar.Token

namespace SurfaceShading.Grammar

/-- What has been read of a model. -/
structure ModelDraft where
  id : Option UInt32
  call : Option String
  body : Option String
  deriving Repr, DecidableEq

/-- A number of 32 bits without a minus sign. -/
def readId? (text : List Char) : Option UInt32 :=
  let digits := match text with
    | '+' :: cs => cs
    | cs => cs
  if digits.isEmpty || !digits.all Char.isDigit then none
  else if natOfDigits digits < UInt32.size then some (UInt32.ofNat (natOfDigits digits))
  else none

/-- Gives a key the text of its assignment. The key of the number is known in any case. -/
def ModelDraft.assign (draft : ModelDraft) (key : String) (text : List Char) :
    Except ModelFault ModelDraft :=
  let value := String.ofList text
  if String.ofList (key.toList.map Char.toLower) = "shadingmodel" then
    match readId? text with
    | some id => .ok { draft with id := some id }
    | none => .error (.invalidId value)
  else if key = "BRDF" then
    if text.isEmpty then .error .emptyCall else .ok { draft with call := some value }
  else .error (.unknownKey key)

/-- Reads assignments `key = text;` and the block of the code to the end of the region. A
wrong one is reported where its key stands. -/
def readEntries (draft : ModelDraft) (s : Span) : Except Failure ModelDraft :=
  let t := s.skipTrivia
  match _ht : t.chars with
  | [] => .ok draft
  | c :: cs =>
    if isNameStart c then
      let name := c :: cs.takeWhile isNameChar
      let key := String.ofList name
      let u := (t.drop name.length).skipTrivia
      match u.chars with
      | '=' :: rest =>
        let value := rest.takeWhile (· ≠ ';')
        if value.length < rest.length then
          match draft.assign key (Text.trim value) with
          | .ok draft => readEntries draft (u.drop (value.length + 2))
          | .error fault => .error ⟨t.start, .model fault⟩
        else .error ⟨t.start, .model (.expectedSemicolon key)⟩
      | '\x7b' :: _ =>
        if key = "BRDF" then
          match u.block with
          | .ok block =>
            let code := Text.trimBlankLines block.body.val.chars
            readEntries { draft with body := some (String.ofList code) } block.after
          | .error failure => .error failure
        else .error ⟨t.start, .model (.expectedValue key)⟩
      | _ => .error ⟨t.start, .model (.expectedValue key)⟩
    else .error ⟨t.start, .model (.unexpected (Text.leadByteChar c))⟩
  termination_by s.size
  decreasing_by
    all_goals
      have h₁ : t.size ≤ s.size := s.size_skipTrivia_le
      have h₂ : u.size ≤ (t.drop name.length).size := Span.size_skipTrivia_le _
      have h₃ : 0 < t.size := by simp [Span.size, _ht]
      have h₄ : 0 < name.length := by simp [name]
      rw [Span.size_drop] at h₂
      have hlt : u.size < s.size := by omega
    · rw [Span.size_drop]
      exact Nat.lt_of_le_of_lt (Nat.sub_le _ _) hlt
    · exact Nat.lt_trans block.after.property hlt

/-- Reads the inside of a `ShadingModel` block. -/
def readModel (s : Span) : Except Failure ShadingModel := do
  let draft ← readEntries ⟨none, none, none⟩ s
  match draft.id, draft.call, draft.body with
  | none, _, _ => .error ⟨s.start, .model .missingId⟩
  | some _, none, _ => .error ⟨s.start, .model .missingCall⟩
  | some _, some _, none => .error ⟨s.start, .model .missingBody⟩
  | some id, some call, some body => .ok ⟨id, call, body⟩

end SurfaceShading.Grammar
