/-
  Cutting a JSON text into tokens. Each token leaves a shorter rest.
-/
import SurfaceShading.Json.Token

namespace SurfaceShading.Json

/-- What follows a word at the start of a text. -/
def afterWord? (word cs : List Char) : Option (List Char) :=
  if word.isPrefixOf cs then some (cs.drop word.length) else none

/-- The token at the start of a text that has no blank there, and what follows it. -/
def lexToken? (cs : List Char) : Option (Token × List Char) :=
  match cs with
  | [] => none
  | c :: rest =>
    if c = '\x7b' then some (.openBrace, rest)
    else if c = '\x7d' then some (.closeBrace, rest)
    else if c = '[' then some (.openBracket, rest)
    else if c = ']' then some (.closeBracket, rest)
    else if c = ',' then some (.comma, rest)
    else if c = ':' then some (.colon, rest)
    else if c = '"' then
      (stringSpan? rest).map fun (units, rest) => (.string (textOfUnits units), rest)
    else if c = 'n' then (afterWord? "null".toList cs).map (.null, ·)
    else if c = 't' then (afterWord? "true".toList cs).map (.bool true, ·)
    else if c = 'f' then (afterWord? "false".toList cs).map (.bool false, ·)
    else (numberSpan? cs).map fun (literal, rest) => (.number literal, rest)

/-! ## Every token has characters -/

theorem length_signSpan_le (cs : List Char) : (signSpan cs).2.length ≤ cs.length := by
  unfold signSpan
  split <;> simp

theorem length_minusSpan_le (cs : List Char) : (minusSpan cs).2.length ≤ cs.length := by
  unfold minusSpan
  split <;> simp

theorem length_spanDigits (cs : List Char) :
    (spanDigits cs).1.length + (spanDigits cs).2.length = cs.length := by
  rw [← List.length_append]
  exact congrArg List.length List.takeWhile_append_dropWhile

theorem length_exponentSpan?_le {cs a rest : List Char} (h : exponentSpan? cs = some (a, rest)) :
    rest.length ≤ cs.length := by
  unfold exponentSpan? at h
  split at h
  · next e tail =>
    split at h
    · dsimp only at h
      split at h
      · cases h
      · cases h
        have := length_spanDigits (signSpan tail).2
        have := length_signSpan_le tail
        rw [List.length_cons]
        omega
    · cases h
      exact Nat.le_refl _
  · cases h
    exact Nat.le_refl _

theorem length_fractionSpan?_le {cs a rest : List Char} (h : fractionSpan? cs = some (a, rest)) :
    rest.length ≤ cs.length := by
  unfold fractionSpan? at h
  split at h
  · next tail =>
    dsimp only at h
    split at h
    · cases h
    · obtain ⟨⟨b, r⟩, hb, hr⟩ := Option.bind_eq_some_iff.mp h
      cases hr
      have := length_exponentSpan?_le hb
      have := length_spanDigits tail
      rw [List.length_cons]
      dsimp only
      omega
  · exact length_exponentSpan?_le h

theorem length_numberSpan?_lt {cs a rest : List Char} (h : numberSpan? cs = some (a, rest)) :
    rest.length < cs.length := by
  unfold numberSpan? at h
  dsimp only at h
  have digits := length_spanDigits (minusSpan cs).2
  have sign := length_minusSpan_le cs
  split at h
  · cases h
  · cases h
  · next none_empty _ =>
    obtain ⟨⟨b, r⟩, hb, hr⟩ := Option.bind_eq_some_iff.mp h
    cases hr
    have := length_fractionSpan?_le hb
    have := List.length_pos_iff.mpr none_empty
    dsimp only
    omega

theorem length_stringSpan?_lt {cs rest : List Char} {units : List StringUnit}
    (h : stringSpan? cs = some (units, rest)) : rest.length < cs.length := by
  fun_induction stringSpan? cs generalizing units rest with
  | case1 => cases h
  | case2 r =>
    cases h
    exact Nat.lt_succ_self _
  | case3 a b c d r ih =>
    obtain ⟨n, _, h⟩ := Option.bind_eq_some_iff.mp h
    obtain ⟨⟨us, r'⟩, h', hr⟩ := Option.bind_eq_some_iff.mp h
    cases hr
    have := ih h'
    simp only [List.length_cons]
    omega
  | case4 c r hc ih =>
    obtain ⟨n, _, h⟩ := Option.bind_eq_some_iff.mp h
    obtain ⟨⟨us, r'⟩, h', hr⟩ := Option.bind_eq_some_iff.mp h
    cases hr
    have := ih h'
    simp only [List.length_cons]
    omega
  | case5 => cases h
  | case6 c r _ _ _ _ ih =>
    obtain ⟨⟨us, r'⟩, h', hr⟩ := Option.bind_eq_some_iff.mp h
    cases hr
    have := ih h'
    simp only [List.length_cons]
    omega

theorem length_afterWord?_lt {word cs rest : List Char} (hw : word ≠ [])
    (h : afterWord? word cs = some rest) : rest.length < cs.length := by
  unfold afterWord? at h
  split at h
  · next hp =>
    cases h
    have := (List.isPrefixOf_iff_prefix.mp hp).length_le
    have := List.length_pos_iff.mpr hw
    rw [List.length_drop]
    omega
  · cases h

theorem length_lexToken?_lt {cs rest : List Char} {token : Token}
    (h : lexToken? cs = some (token, rest)) : rest.length < cs.length := by
  unfold lexToken? at h
  split at h
  · cases h
  · next c tail =>
    have mark : ∀ {t : Token}, some (t, tail) = some (token, rest) →
        rest.length < (c :: tail).length := by
      intro t ht
      cases ht
      exact Nat.lt_succ_self _
    have word : ∀ {w : List Char} {t : Token}, w ≠ [] →
        (afterWord? w (c :: tail)).map (t, ·) = some (token, rest) →
        rest.length < (c :: tail).length := by
      intro w t hw ht
      obtain ⟨r, hr, he⟩ := Option.map_eq_some_iff.mp ht
      cases he
      exact length_afterWord?_lt hw hr
    repeat (split at h; exact mark h)
    split at h
    · obtain ⟨⟨us, r⟩, hr, he⟩ := Option.map_eq_some_iff.mp h
      cases he
      exact Nat.lt_succ_of_lt (length_stringSpan?_lt hr)
    repeat (split at h; exact word (by decide) h)
    obtain ⟨⟨l, r⟩, hr, he⟩ := Option.map_eq_some_iff.mp h
    cases he
    exact length_numberSpan?_lt hr

/-- The tokens of a text. -/
def lex? (cs : List Char) : Option (List Token) :=
  match cs with
  | [] => some []
  | c :: rest =>
    if isBlank c then lex? rest
    else
      match _h : lexToken? (c :: rest) with
      | none => none
      | some (token, after) => (lex? after).map (token :: ·)
  termination_by cs.length
  decreasing_by
    · exact Nat.lt_succ_self rest.length
    · exact length_lexToken?_lt _h

end SurfaceShading.Json
