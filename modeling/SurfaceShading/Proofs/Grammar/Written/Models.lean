/-
  Reading written shading models: an assignment, the block of the code, and the whole model.
-/
import SurfaceShading.Proofs.Grammar.Written
import SurfaceShading.Proofs.Number.Digits

namespace SurfaceShading.Grammar

/-- A number is read from its digits. -/
theorem readId?_toDigits (id : UInt32) : readId? (Nat.toDigits 10 id.toNat) = some id := by
  have digits : ∀ c ∈ Nat.toDigits 10 id.toNat, c.isDigit = true :=
    fun c mem => isDigit_of_mem_toDigits mem
  have value := natOfDigits_toDigits id.toNat
  cases chars : Nat.toDigits 10 id.toNat with
  | nil => exact absurd chars Nat.toDigits_ne_nil
  | cons c cs =>
    rw [chars] at digits value
    have unsigned : c ≠ '+' := by
      rintro rfl
      exact absurd (digits _ List.mem_cons_self) (by decide)
    have all : ((c :: cs).isEmpty || !(c :: cs).all Char.isDigit) = false := by
      rw [List.all_eq_true.2 digits]
      rfl
    unfold readId?
    split
    next plus => exact absurd (List.cons.inj plus).1 unsigned
    next =>
      dsimp only
      rw [all, if_neg Bool.false_ne_true, value, if_pos id.toNat_lt, UInt32.ofNat_toNat]

/-- The digits of a number are a word without marks. -/
theorem toDigits_solid (n : Nat) : Text.Word (Nat.toDigits 10 n) ∧ NoBraces (Nat.toDigits 10 n) ∧
    ';' ∉ Nat.toDigits 10 n := by
  have solid (c : Char) (mem : c ∈ Nat.toDigits 10 n) := @isNameChar_solid c (by
    rw [isNameChar, isDigit_of_mem_toDigits mem, Bool.or_true, Bool.true_or])
  exact ⟨⟨Nat.toDigits_ne_nil, fun c mem => (solid c mem).1⟩,
    ⟨fun mem => (solid _ mem).2.1 rfl, fun mem => (solid _ mem).2.2.1 rfl⟩,
    fun mem => (solid _ mem).2.2.2.1 rfl⟩

variable {s : Span} {rest : List Char}

/-- What is behind a key on a line and a blank. -/
theorem chars_behind {key : List Char} (is : isName key = true) {c : Char}
    (solid : Text.isAsciiBlank c = false) (other : c ≠ '/')
    (text : s.chars = '\n' :: (key ++ ' ' :: c :: rest)) :
    s.skipTrivia.chars = key ++ ' ' :: c :: rest ∧
      (s.skipTrivia.drop key.length).skipTrivia.chars = c :: rest := by
  have here : s.skipTrivia.chars = key ++ ' ' :: c :: rest := by
    rw [chars_skipTrivia, text, afterTrivia_blank rfl, afterTrivia_name is]
  refine ⟨here, ?_⟩
  rw [chars_skipTrivia, chars_drop, here, List.drop_left' rfl, afterTrivia_blank rfl,
    afterTrivia_solid solid other]

/-- An assignment that is understood is taken in. -/
theorem readEntries_assignment {key : String} (is : isName key.toList = true) {value : List Char}
    (trimmed : Text.Trimmed value) (noSemicolon : ';' ∉ value)
    (text : s.chars = '\n' :: (writeAssignment key value ++ rest))
    {draft draft' : ModelDraft} (assigned : draft.assign key value = .ok draft') :
    ∃ after : Span, after.chars = '\n' :: rest ∧
      readEntries draft s = readEntries draft' after := by
  rw [writeAssignment_append] at text
  obtain ⟨here, behind⟩ := chars_behind is rfl (by decide) text
  obtain ⟨c, cs, chars, start, run⟩ :=
    @isName_run (' ' :: '=' :: (' ' :: value ++ ';' :: '\n' :: rest)) _ is (by rintro _ ⟨⟩; rfl)
  have named : String.ofList (c :: cs) = key := by rw [← chars, String.ofList_toList]
  rw [chars, List.cons_append] at here
  rw [chars] at behind
  have step := @readEntries_assign s _ draft c _ here start (by rw [run]) (' ' :: value)
    ('\n' :: rest) (by simpa using noSemicolon) behind
  rw [run, named, Text.trim_blank_cons rfl, trimmed.trim, assigned] at step
  refine ⟨_, ?_, step⟩
  rw [chars_drop, behind, List.drop_succ_cons, ← List.drop_drop, List.drop_left' rfl]
  rfl

/-- A block of code is taken in without the blank lines around the code. -/
theorem readEntries_body {body : List Char} (balanced : Balanced '\x7b' '\x7d' body)
    (text : s.chars = '\n' :: (writeBlock "BRDF" body ++ rest)) (draft : ModelDraft) :
    ∃ after : Span, after.chars = '\n' :: rest ∧ readEntries draft s =
      readEntries { draft with body := some (String.ofList (Text.trimBlankLines ('\n' :: body))) }
        after := by
  rw [writeBlock_append] at text
  have isKey : isName "BRDF".toList = true := by decide
  obtain ⟨here, behind⟩ := chars_behind isKey rfl (by decide) text
  obtain ⟨c, cs, chars, start, run⟩ :=
    @isName_run (' ' :: '\x7b' :: ('\n' :: body ++ '\x7d' :: '\n' :: rest)) _ isKey
      (by rintro _ ⟨⟩; rfl)
  have named : String.ofList (c :: cs) = "BRDF" := by rw [← chars, String.ofList_toList]
  rw [chars, List.cons_append] at here
  rw [chars] at behind
  have feed : Balanced '\x7b' '\x7d' ['\n'] := .of_not_mem (by decide) (by decide)
  obtain ⟨block, cut, inside, after⟩ := @block_ok _ _ [] ('\n' :: body) List.not_mem_nil
    (feed.append balanced) behind
  have step := @readEntries_code s _ draft c _ here start (by rw [run]) _ behind (by rw [run, named])
  rw [cut] at step
  dsimp only at step
  rw [inside] at step
  exact ⟨_, after, step⟩

/-- The inside of a written block reads as the model. -/
theorem readModel_written {m : ShadingModel} (writable : WritableModel m)
    (text : s.chars = '\n' :: writeModel m) : readModel s = .ok m := by
  obtain ⟨digits, -, noSemicolon⟩ := toDigits_solid m.id.toNat
  rw [writeModel, List.append_assoc] at text
  obtain ⟨s₁, text₁, read₁⟩ := @readEntries_assignment s _ "shadingmodel" (by decide) _
    digits.trimmed noSemicolon text ⟨none, none, none⟩ ⟨some m.id, none, none⟩ (by
      rw [ModelDraft.assign]
      dsimp only
      rw [if_pos (by decide), readId?_toDigits])
  obtain ⟨s₂, text₂, read₂⟩ := @readEntries_assignment s₁ _ "BRDF" (by decide) _
    writable.trimmed writable.semicolon text₁ ⟨some m.id, none, none⟩ ⟨some m.id, some m.call, none⟩
    (by
      rw [ModelDraft.assign]
      dsimp only
      rw [if_neg (by decide), if_pos rfl, if_neg (by simpa using writable.nonempty),
        String.ofList_toList])
  rw [← List.append_nil (writeBlock _ _)] at text₂
  obtain ⟨s₃, text₃, read₃⟩ := readEntries_body
    (writable.balanced.append (.of_not_mem (by decide) (by decide))) text₂
    ⟨some m.id, some m.call, none⟩
  have finished (draft : ModelDraft) : readEntries draft s₃ = .ok draft := by
    have nothing : s₃.skipTrivia.chars = [] := by
      rw [chars_skipTrivia, text₃, afterTrivia_blank rfl, afterTrivia_nil]
    exact readEntries_end nothing
  have kept := writable.body.trimBlankLines
  rw [List.cons_append] at kept
  rw [readModel, read₁, read₂, read₃, finished, kept, String.ofList_toList]
  rfl

end SurfaceShading.Grammar
