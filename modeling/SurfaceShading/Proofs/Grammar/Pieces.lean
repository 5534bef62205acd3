/-
  What the reader of shader texts finds when the text at hand begins with a known piece: a name,
  a quoted string, or a block whose braces are balanced (`Balanced`). The pieces are stated on
  the characters of a region; where it stands does not matter for what is found.
-/
import SurfaceShading.Proofs.Text.Cuts
import SurfaceShading.Shader.Grammar.ModelBlock
import SurfaceShading.Shader.Grammar.PropertyLine

namespace SurfaceShading.Grammar

/-! ## Balance -/

/-- No part of the text from its start on closes more groups than it opens, and all groups are
closed in the end. -/
structure Balanced (opener closer : Char) (cs : List Char) : Prop where
  never : ∀ before, before <+: cs → before.count closer ≤ before.count opener
  all : cs.count closer = cs.count opener

instance (opener closer : Char) (cs : List Char) : Decidable (Balanced opener closer cs) :=
  decidable_of_iff ((∀ before ∈ cs.inits, before.count closer ≤ before.count opener) ∧
      cs.count closer = cs.count opener)
    ⟨fun h => ⟨fun before is => h.1 before (List.mem_inits before cs |>.2 is), h.2⟩,
      fun h => ⟨fun before mem => h.never before (List.mem_inits before cs |>.1 mem), h.all⟩⟩

namespace Balanced

variable {opener closer : Char} {cs ds : List Char}

theorem of_not_mem (noOpener : opener ∉ cs) (noCloser : closer ∉ cs) :
    Balanced opener closer cs where
  never before is := by
    rw [List.count_eq_zero_of_not_mem (mt (is.subset ·) noCloser)]
    exact Nat.zero_le _
  all := by rw [List.count_eq_zero_of_not_mem noOpener, List.count_eq_zero_of_not_mem noCloser]

theorem append (balanced : Balanced opener closer cs) (balanced' : Balanced opener closer ds) :
    Balanced opener closer (cs ++ ds) where
  never before is := by
    rcases List.prefix_or_prefix_of_prefix is (List.prefix_append cs ds) with within | beyond
    · exact balanced.never before within
    · obtain ⟨rest, rfl⟩ := beyond
      rw [List.count_append, List.count_append, balanced.all]
      exact Nat.add_le_add_left
        (balanced'.never rest ((List.prefix_append_right_inj cs).1 is)) _
  all := by rw [List.count_append, List.count_append, balanced.all, balanced'.all]

/-- A group around a balanced text. -/
theorem group (apart : opener ≠ closer) (balanced : Balanced opener closer cs) :
    Balanced opener closer (opener :: cs ++ [closer]) where
  never before is := by
    rcases List.prefix_concat_iff.1 is with rfl | within
    · simp [balanced.all, apart, apart.symm]
    · rcases List.prefix_cons_iff.1 within with rfl | ⟨rest, rfl, within'⟩
      · exact Nat.le_refl _
      · rw [List.count_cons_of_ne apart, List.count_cons_self]
        exact Nat.le_succ_of_le (balanced.never rest within')
  all := by simp [balanced.all, apart, apart.symm]

theorem flatMap {α : Type} {f : α → List Char} {xs : List α}
    (each : ∀ x ∈ xs, Balanced opener closer (f x)) : Balanced opener closer (xs.flatMap f) := by
  induction xs with
  | nil => exact of_not_mem List.not_mem_nil List.not_mem_nil
  | cons x xs ih =>
    rw [List.flatMap_cons]
    exact (each x List.mem_cons_self).append (ih fun y mem => each y (List.mem_cons_of_mem x mem))

end Balanced

/-- Counting through a text that closes the groups of `extra` levels and leaves none of its own
open. -/
theorem closing_append {opener closer : Char} (apart : opener ≠ closer) {cs : List Char}
    (extra : Nat) (never : ∀ before, before <+: cs → before.count closer ≤ extra + before.count opener)
    (all : cs.count closer = extra + cs.count opener) (depth : Nat) (rest : List Char) :
    closing opener closer (depth + extra) (cs ++ rest) =
      (closing opener closer depth rest).map (· + cs.length) := by
  induction cs generalizing extra with
  | nil =>
    have zero : extra = 0 := by simpa using all.symm
    rw [zero]
    simp
  | cons c cs ih =>
    have later (before : List Char) (is : before <+: cs) :=
      never (c :: before) (List.cons_prefix_cons.2 ⟨rfl, is⟩)
    have longer (n : Nat) : n + cs.length + 1 = n + (c :: cs).length := by
      rw [List.length_cons, Nat.add_assoc]
    rw [List.cons_append, closing.eq_def]
    dsimp only
    by_cases opens : c = opener
    · subst opens
      simp only [List.count_cons_self, List.count_cons_of_ne apart] at later all
      rw [if_pos rfl, Nat.add_assoc, ih (extra + 1)
        (fun before is => by have := later before is; omega) (by omega), Option.map_map]
      exact congrArg (Option.map · _) (funext longer)
    · rw [if_neg opens]
      by_cases closes : c = closer
      · subst closes
        have open' : 1 ≤ extra := by
          have first := never [c] (List.cons_prefix_cons.2 ⟨rfl, List.nil_prefix⟩)
          simpa [List.count_cons_of_ne opens] using first
        obtain ⟨extra, rfl⟩ := Nat.exists_eq_add_of_le' open'
        simp only [List.count_cons_self, List.count_cons_of_ne opens] at later all
        rw [if_pos rfl, ← Nat.add_assoc]
        dsimp only
        rw [ih extra (fun before is => by have := later before is; omega) (by omega), Option.map_map]
        exact congrArg (Option.map · _) (funext longer)
      · simp only [List.count_cons_of_ne opens, List.count_cons_of_ne closes] at later all
        rw [if_neg closes, ih extra later all, Option.map_map]
        exact congrArg (Option.map · _) (funext longer)

/-- A balanced text ends where the group around it is closed. -/
theorem Balanced.closing {opener closer : Char} (apart : opener ≠ closer) {cs : List Char}
    (balanced : Balanced opener closer cs) (rest : List Char) :
    closing opener closer 0 (cs ++ closer :: rest) = some cs.length := by
  have through := closing_append apart 0 (by simpa using balanced.never)
    (by simpa using balanced.all) 0 (closer :: rest)
  rw [Nat.add_zero] at through
  rw [through, closing.eq_def]
  dsimp only
  rw [if_neg apart.symm, if_pos rfl, Option.map_some, Nat.zero_add]

/-! ## Blanks and comments -/

/-- A text without the blanks and comments at its start. -/
def afterTrivia (cs : List Char) : List Char := cs.drop (triviaLength .code cs)

@[simp] theorem chars_skipTrivia (s : Span) : s.skipTrivia.chars = afterTrivia s.chars := rfl

@[simp] theorem chars_drop (s : Span) (n : Nat) : (s.drop n).chars = s.chars.drop n := rfl

@[simp] theorem afterTrivia_nil : afterTrivia [] = [] := rfl

theorem triviaLength_blank {c : Char} (blank : Text.isAsciiBlank c = true) (cs : List Char) :
    triviaLength .code (c :: cs) = triviaLength .code cs + 1 := by
  have other : c ≠ '/' := by
    rintro rfl
    cases blank
  rw [triviaLength.eq_def]
  simp [other, blank]

theorem triviaLength_solid {c : Char} (solid : Text.isAsciiBlank c = false) (other : c ≠ '/')
    (cs : List Char) : triviaLength .code (c :: cs) = 0 := by
  rw [triviaLength.eq_def]
  simp [other, solid]

theorem afterTrivia_blank {c : Char} (blank : Text.isAsciiBlank c = true) (cs : List Char) :
    afterTrivia (c :: cs) = afterTrivia cs := by
  rw [afterTrivia, triviaLength_blank blank, List.drop_succ_cons, afterTrivia]

theorem afterTrivia_solid {c : Char} (solid : Text.isAsciiBlank c = false) (other : c ≠ '/')
    (cs : List Char) : afterTrivia (c :: cs) = c :: cs := by
  rw [afterTrivia, triviaLength_solid solid other, List.drop_zero]

/-! ## Names, strings and blocks -/

section

variable {s : Span} {rest : List Char}

theorem toNat_of_isNameChar {c : Char} (is : isNameChar c = true) :
    48 ≤ c.toNat ∧ c.toNat ≤ 57 ∨ 65 ≤ c.toNat ∧ c.toNat ≤ 122 := by
  change (decide (c.val ≥ 'A'.val ∧ c.val ≤ 'Z'.val) ||
    (decide (c.val ≥ 'a'.val) && decide (c.val ≤ 'z'.val)) || c.isDigit || c == '_') = true at is
  simp only [Bool.or_eq_true, Bool.and_eq_true, decide_eq_true_eq, ge_iff_le, UInt32.le_iff_toNat_le, beq_iff_eq,
    Char.isDigit_iff_toNat] at is
  rcases is with ((upper | lower) | digit) | rfl
  · exact .inr ⟨upper.1, Nat.le_trans upper.2 (by decide)⟩
  · exact .inr ⟨Nat.le_trans (by decide) lower.1, lower.2⟩
  · exact .inl digit
  · exact .inr (by decide)

theorem isNameChar_of_start {c : Char} (start : isNameStart c = true) : isNameChar c = true := by
  simp only [isNameStart, Bool.or_eq_true] at start
  simp only [isNameChar, Bool.or_eq_true]
  exact start.imp_left .inl

/-- A name does not start with what is passed over or quoted. -/
theorem isNameStart_solid {c : Char} (start : isNameStart c = true) :
    Text.isAsciiBlank c = false ∧ c ≠ '/' ∧ c ≠ '"' := by
  refine ⟨Bool.eq_false_iff.2 fun blank => ?_, ?_, ?_⟩
  · simp only [Text.isAsciiBlank, Bool.or_eq_true, beq_iff_eq] at blank
    rcases blank with (((rfl | rfl) | rfl) | rfl) | rfl <;> cases start
  · rintro rfl
    cases start
  · rintro rfl
    cases start

/-- A name is read to its end if no further character of a name is behind it. -/
theorem isName_run {name : List Char} (is : isName name = true)
    (stop : ∀ c ∈ rest.head?, isNameChar c = false) :
    ∃ c cs, name = c :: cs ∧ isNameStart c = true ∧ (cs ++ rest).takeWhile isNameChar = cs := by
  cases name with
  | nil => cases is
  | cons c cs =>
    obtain ⟨start, all⟩ : isNameStart c = true ∧ ∀ d ∈ cs, isNameChar d = true := by
      simpa [isName] using is
    refine ⟨c, cs, rfl, start, ?_⟩
    rw [List.takeWhile_append_of_pos all]
    cases rest with
    | nil => simp
    | cons d rest => simp [stop d rfl]

theorem afterTrivia_name {name : List Char} (is : isName name = true) (rest : List Char) :
    afterTrivia (name ++ rest) = name ++ rest := by
  cases name with
  | nil => cases is
  | cons c cs =>
    obtain ⟨blank, other, -⟩ := isNameStart_solid (Bool.and_eq_true_iff.1 is).1
    exact afterTrivia_solid blank other _

/-- A name, with the end or no further character of a name behind it. -/
theorem next_name {name : String} (is : isName name.toList = true)
    (text : afterTrivia s.chars = name.toList ++ rest)
    (stop : ∀ c ∈ rest.head?, isNameChar c = false) :
    ∃ position, ∃ after : Shorter s.size, s.next = .name position name after ∧
      after.val.chars = rest := by
  obtain ⟨c, cs, chars, start, run⟩ := isName_run is stop
  have named : String.ofList (c :: (cs ++ rest).takeWhile isNameChar) = name := by
    rw [run, ← chars, String.ofList_toList]
  rw [chars, List.cons_append] at text
  unfold Span.next
  dsimp only
  split
  · next none =>
    rw [chars_skipTrivia, text] at none
    cases none
  · next some =>
    rw [chars_skipTrivia, text] at some
    cases some
    rw [if_neg (isNameStart_solid start).2.2, if_pos start]
    refine ⟨_, _, congrArg₂ (Token.name _) named rfl, ?_⟩
    rw [chars_drop, chars_skipTrivia, text, run]
    exact List.drop_left' rfl

/-- A quoted string on one line. -/
theorem quoted_ok {content : List Char} (noQuote : '"' ∉ content) (noFeed : '\n' ∉ content)
    (text : afterTrivia s.chars = '"' :: (content ++ '"' :: rest)) :
    ∃ after : Shorter s.size, s.quoted = .ok (content, after) ∧ after.val.chars = rest := by
  have run : (content ++ '"' :: rest).takeWhile (fun c => c ≠ '"' && c ≠ '\n') = content := by
    rw [List.takeWhile_append_of_pos, List.takeWhile_cons_of_neg (by decide), List.append_nil]
    intro c mem
    simp [ne_of_mem_of_not_mem mem noQuote, ne_of_mem_of_not_mem mem noFeed]
  have left : (content ++ '"' :: rest).drop content.length = '"' :: rest := List.drop_left' rfl
  unfold Span.quoted
  dsimp only
  split
  · next some =>
    rw [chars_skipTrivia, text] at some
    cases some
    split
    · refine ⟨_, congrArg Except.ok (congrArg₂ Prod.mk run rfl), ?_⟩
      rw [chars_drop, chars_skipTrivia, text, run, List.drop_succ_cons, ← List.drop_drop, left]
      rfl
    · next other =>
      rw [run] at other
      exact absurd left (other _)
  · next other =>
    exact absurd (chars_skipTrivia s ▸ text) (other _)

/-- A block whose braces are balanced. -/
theorem block_ok {lead body : List Char} (noBrace : '\x7b' ∉ lead)
    (balanced : Balanced '\x7b' '\x7d' body)
    (text : s.chars = lead ++ '\x7b' :: (body ++ '\x7d' :: rest)) :
    ∃ block, s.block = .ok block ∧ block.body.val.chars = body ∧ block.after.val.chars = rest := by
  have run : s.chars.takeWhile (· ≠ '\x7b') = lead := text ▸ Text.takeWhile_ne_append noBrace _
  have inside : (s.drop (lead.length + 1)).chars = body ++ '\x7d' :: rest := by
    rw [chars_drop, text]
    simp
  have closed := balanced.closing (by decide) rest
  have shorter : lead.length < s.size := by
    rw [Span.size, text]
    simp
  unfold Span.block
  dsimp only
  rw [dif_pos (by rwa [run])]
  split
  · next n found =>
    rw [run, inside, closed] at found
    cases found
    refine ⟨_, rfl, ?_, ?_⟩
    · show (List.take _ (s.drop _).chars) = _
      rw [run, inside]
      exact List.take_left' rfl
    · show (List.drop _ (s.drop _).chars) = _
      rw [run, inside, ← List.drop_drop, List.drop_left' rfl]
      rfl
  · next none =>
    rw [run, inside, closed] at none
    cases none

end

/-! ## Attributes -/

section

variable {p : Property} {c : Char} {rest inside : List Char}

theorem isNameStart_noSeparator (start : isNameStart c = true) :
    ¬ (Text.isAsciiBlank c || c == ',') = true := by
  rw [(isNameStart_solid start).1, Bool.false_or, beq_iff_eq]
  rintro rfl
  cases start

/-- Reading goes on behind the group of a key. -/
theorem readAttributes_group (start : isNameStart c = true)
    (left : rest.drop (rest.takeWhile isNameChar).length = '(' :: inside) :
    readAttributes p (c :: rest) =
      match closing '(' ')' 0 inside with
      | some n =>
        withAttribute p (String.ofList (c :: rest.takeWhile isNameChar)) (inside.take n) >>=
          fun p => readAttributes p (inside.drop (n + 1))
      | none => .error (.unclosed (String.ofList (c :: rest.takeWhile isNameChar))) := by
  rw [readAttributes, if_neg (isNameStart_noSeparator start), if_pos start]
  dsimp only
  split
  · next inside' here =>
    cases left.symm.trans here
    rfl
  · next other => exact absurd left (other _)

/-- A key needs a group. -/
theorem readAttributes_noGroup (start : isNameStart c = true)
    (left : (rest.drop (rest.takeWhile isNameChar).length).head? ≠ some '(') :
    readAttributes p (c :: rest) =
      .error (.expectedParenthesis (String.ofList (c :: rest.takeWhile isNameChar))) := by
  rw [readAttributes, if_neg (isNameStart_noSeparator start), if_pos start]
  dsimp only
  split
  · next inside' here =>
    rw [show rest.drop (rest.takeWhile isNameChar).length = '(' :: inside' from here] at left
    exact absurd rfl left
  · rfl

end

/-! ## Entries -/

section

variable {s u : Span} {draft : ModelDraft} {c : Char} {cs : List Char}

theorem readEntries_end (none : s.skipTrivia.chars = []) : readEntries draft s = .ok draft := by
  rw [readEntries.eq_def]
  dsimp only
  split
  · rfl
  · next some =>
    rw [none] at some
    cases some

theorem readEntries_other (chars : s.skipTrivia.chars = c :: cs) (other : isNameStart c = false) :
    readEntries draft s =
      .error ⟨s.skipTrivia.start, .model (.unexpected (Text.leadByteChar c))⟩ := by
  rw [readEntries.eq_def]
  dsimp only
  split
  · next none =>
    rw [chars] at none
    cases none
  · next some =>
    rw [chars] at some
    cases some
    rw [other, if_neg Bool.false_ne_true]

/-- What a key leads to is told by what is behind it. -/
theorem readEntries_key (chars : s.skipTrivia.chars = c :: cs) (start : isNameStart c = true)
    (behind : (s.skipTrivia.drop (c :: cs.takeWhile isNameChar).length).skipTrivia = u) :
    readEntries draft s =
      match u.chars with
      | '=' :: rest =>
        if (rest.takeWhile (· ≠ ';')).length < rest.length then
          match draft.assign (String.ofList (c :: cs.takeWhile isNameChar))
              (Text.trim (rest.takeWhile (· ≠ ';'))) with
          | .ok draft => readEntries draft (u.drop ((rest.takeWhile (· ≠ ';')).length + 2))
          | .error fault => .error ⟨s.skipTrivia.start, .model fault⟩
        else
          .error ⟨s.skipTrivia.start,
            .model (.expectedSemicolon (String.ofList (c :: cs.takeWhile isNameChar)))⟩
      | '\x7b' :: _ =>
        if String.ofList (c :: cs.takeWhile isNameChar) = "BRDF" then
          match u.block with
          | .ok block =>
            let code := Text.trimBlankLines block.body.val.chars
            readEntries { draft with body := some (String.ofList code) } block.after
          | .error failure => .error failure
        else
          .error ⟨s.skipTrivia.start,
            .model (.expectedValue (String.ofList (c :: cs.takeWhile isNameChar)))⟩
      | _ =>
        .error ⟨s.skipTrivia.start,
          .model (.expectedValue (String.ofList (c :: cs.takeWhile isNameChar)))⟩ := by
  subst behind
  rw [readEntries.eq_def]
  dsimp only
  split
  · next none =>
    rw [chars] at none
    cases none
  · next some =>
    rw [chars] at some
    cases some
    exact (if_pos start).trans rfl

section

variable (chars : s.skipTrivia.chars = c :: cs) (start : isNameStart c = true)
  (behind : (s.skipTrivia.drop (c :: cs.takeWhile isNameChar).length).skipTrivia = u)
include chars start behind

/-- An assignment goes up to a semicolon. -/
theorem readEntries_assign {value rest : List Char} (none : ';' ∉ value)
    (sign : u.chars = '=' :: (value ++ ';' :: rest)) :
    readEntries draft s =
      match draft.assign (String.ofList (c :: cs.takeWhile isNameChar)) (Text.trim value) with
      | .ok draft => readEntries draft (u.drop (value.length + 2))
      | .error fault => .error ⟨s.skipTrivia.start, .model fault⟩ := by
  rw [readEntries_key chars start behind]
  split
  · next is =>
    cases sign.symm.trans is
    rw [Text.takeWhile_ne_append none, if_pos (by simp)]
  · next is => cases sign.symm.trans is
  · next other _ => exact absurd sign (other _)

theorem readEntries_noSemicolon {rest : List Char} (none : ';' ∉ rest)
    (sign : u.chars = '=' :: rest) :
    readEntries draft s = .error ⟨s.skipTrivia.start,
      .model (.expectedSemicolon (String.ofList (c :: cs.takeWhile isNameChar)))⟩ := by
  have all : rest.takeWhile (· ≠ ';') = rest := by
    rw [List.takeWhile_eq_self_iff]
    intro d mem
    simp [ne_of_mem_of_not_mem mem none]
  rw [readEntries_key chars start behind]
  split
  · next is =>
    cases sign.symm.trans is
    rw [all, if_neg (Nat.lt_irrefl _)]
  · next is => cases sign.symm.trans is
  · next other _ => exact absurd sign (other _)

/-- The block of the code belongs to one key. -/
theorem readEntries_code {rest : List Char} (sign : u.chars = '\x7b' :: rest)
    (key : String.ofList (c :: cs.takeWhile isNameChar) = "BRDF") :
    readEntries draft s =
      match u.block with
      | .ok block =>
        let code := Text.trimBlankLines block.body.val.chars
        readEntries { draft with body := some (String.ofList code) } block.after
      | .error failure => .error failure := by
  rw [readEntries_key chars start behind]
  split
  · next is => cases sign.symm.trans is
  · rw [if_pos key]
  · next _ other => exact absurd sign (other _)

/-- Any other key needs a value. -/
theorem readEntries_noValue (noSign : u.chars.head? ≠ some '=')
    (noCode : u.chars.head? = some '\x7b' → String.ofList (c :: cs.takeWhile isNameChar) ≠ "BRDF") :
    readEntries draft s = .error ⟨s.skipTrivia.start,
      .model (.expectedValue (String.ofList (c :: cs.takeWhile isNameChar)))⟩ := by
  rw [readEntries_key chars start behind]
  split
  · next sign =>
    rw [sign] at noSign
    exact absurd rfl noSign
  · next sign =>
    rw [sign] at noCode
    rw [if_neg (noCode rfl)]
  · rfl

end

end

end SurfaceShading.Grammar
