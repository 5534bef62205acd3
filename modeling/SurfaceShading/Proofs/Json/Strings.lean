/-
  Strings between quotes.

  Main statement: a text of any characters is written between quotes so that it is read back,
  with whatever follows left as it is (`lexToken?_quote`).
-/
import SurfaceShading.Json.Printer

namespace SurfaceShading.Json

/-- Whether a unit stands for a character, whatever units follow it. -/
def Decodes (u : StringUnit) (c : Char) : Prop :=
  ∀ units, decodeUnits? (u :: units) = (decodeUnits? units).map (c :: ·)

/-- Whether a text is one unit to the reader of a string. -/
def IsUnit (cs : List Char) (u : StringUnit) : Prop :=
  ∀ rest, stringSpan? (cs ++ rest) = (stringSpan? rest).map fun s => (u :: s.1, s.2)

theorem decodes_char (c : Char) : Decodes (.char c) c := fun _ => rfl

/-- The four digits of a control character. -/
theorem hexWord?_control :
    ∀ n < 32, hexWord? '0' '0' (Nat.digitChar (n / 16)) (Nat.digitChar (n % 16)) = some n := by
  decide

theorem decodes_control {c : Char} (control : c.toNat < 32) : Decodes (.word c.toNat) c := by
  intro units
  have low : ¬(0xD800 ≤ c.toNat ∧ c.toNat < 0xDC00) := by omega
  have high : ¬(0xDC00 ≤ c.toNat ∧ c.toNat < 0xE000) := by omega
  rw [decodeUnits?.eq_def (.word c.toNat :: units)]
  dsimp only
  rw [if_neg low, if_neg high, Char.ofNat_toNat]

theorem isUnit_control {c : Char} (control : c.toNat < 32) :
    IsUnit (['\\', 'u', '0', '0'] ++ hexByte c.toNat) (.word c.toNat) := by
  intro rest
  have word := hexWord?_control c.toNat control
  have text : ['\\', 'u', '0', '0'] ++ hexByte c.toNat ++ rest = '\\' :: 'u' :: '0' :: '0' ::
      Nat.digitChar (c.toNat / 16) :: Nat.digitChar (c.toNat % 16) :: rest := rfl
  rw [text, stringSpan?, word]
  cases stringSpan? rest <;> rfl

/-- An escape of one letter other than `u`. -/
theorem isUnit_escape {letter c : Char} (other : letter ≠ 'u')
    (escape : escapedChar? letter = some c) : IsUnit ['\\', letter] (.char c) := by
  intro rest
  have text : ['\\', letter] ++ rest = '\\' :: letter :: rest := rfl
  rw [text, stringSpan?.eq_4 _ _ (fun a b c d rest same _ => other same), escape]
  cases stringSpan? rest <;> rfl

theorem isUnit_plain {c : Char} (quote : c ≠ '"') (backslash : c ≠ '\\')
    (printable : ¬c.toNat < 32) : IsUnit [c] (.char c) := by
  intro rest
  rw [List.singleton_append, stringSpan?.eq_5 _ _ quote (fun _ _ _ _ _ same => absurd same backslash)
    (fun _ _ same => absurd same backslash), if_neg printable]
  cases stringSpan? rest <;> rfl

/-- Every character is written as one unit. -/
theorem exists_unit (c : Char) : ∃ u, Decodes u c ∧ IsUnit (escapeChar c) u := by
  have escape {letter d : Char} (other : letter ≠ 'u') (escape : escapedChar? letter = some d)
      (same : c = d) : ∃ u, Decodes u c ∧ IsUnit ['\\', letter] u :=
    ⟨.char d, same ▸ decodes_char c, isUnit_escape other escape⟩
  unfold escapeChar
  iterate 7
    split
    · next same => exact escape (by decide) rfl same
  split
  · next control => exact ⟨_, decodes_control control, isUnit_control control⟩
  · next quote backslash _ _ _ _ _ printable =>
    exact ⟨_, decodes_char c, isUnit_plain quote backslash printable⟩

/-- The text between quotes is read to the closing quote, as the characters it was written for. -/
theorem stringSpan?_text (cs rest : List Char) : ∃ units,
    stringSpan? (cs.flatMap escapeChar ++ '"' :: rest) = some (units, rest) ∧
      decodeUnits? units = some cs := by
  induction cs with
  | nil => exact ⟨[], rfl, rfl⟩
  | cons c cs ih =>
    obtain ⟨units, span, decoded⟩ := ih
    obtain ⟨u, decodes, unit⟩ := exists_unit c
    refine ⟨u :: units, ?_, ?_⟩
    · rw [List.flatMap_cons, List.append_assoc, unit, span, Option.map_some]
    · rw [decodes, decoded, Option.map_some]

/-- Every text is read from between quotes. -/
theorem lexToken?_quote (s : String) (rest : List Char) :
    lexToken? (quote s ++ rest) = some (.string (some s), rest) := by
  obtain ⟨units, span, decoded⟩ := stringSpan?_text s.toList rest
  have text : quote s ++ rest = '"' :: (s.toList.flatMap escapeChar ++ '"' :: rest) := by
    rw [quote, List.append_assoc]
    rfl
  have token : lexToken? (quote s ++ rest) =
      (stringSpan? (s.toList.flatMap escapeChar ++ '"' :: rest)).map fun p =>
        (.string (textOfUnits p.1), p.2) := by
    rw [text]
    rfl
  rw [token, span, Option.map_some, textOfUnits, decoded, Option.map_some, String.ofList_toList]

end SurfaceShading.Json
