/-
  Passing over blanks and comments by byte offsets ends where it ends among the characters
  (`skipTrivia_eq`). Each round passes over one blank or one comment (`Passes`), and what a slash
  belongs to is the same by the byte behind it as by the character behind it, as long as no mark
  of a comment is cut in two by the end of the region.
-/
import SurfaceShading.Proofs.Grammar.Bytewise
import SurfaceShading.Proofs.Grammar.Pieces

namespace SurfaceShading.Grammar.Bytewise

open Text

/-! ## Comments -/

theorem triviaLength_line {cs : List Char} (none : '\n' ∉ cs) :
    triviaLength .line cs = cs.length := by
  induction cs with
  | nil => rfl
  | cons c cs ih =>
    obtain ⟨other, later⟩ := not_or.1 (mt List.mem_cons.2 none)
    rw [triviaLength, if_neg (Ne.symm other), ih later, List.length_cons]

theorem triviaLength_line_append {lead : List Char} (none : '\n' ∉ lead) (rest : List Char) :
    triviaLength .line (lead ++ '\n' :: rest) =
      (lead ++ ['\n']).length + triviaLength .code rest := by
  induction lead with
  | nil => rw [List.nil_append, triviaLength, if_pos rfl, Nat.add_comm]; rfl
  | cons c lead ih =>
    obtain ⟨other, later⟩ := not_or.1 (mt List.mem_cons.2 none)
    rw [List.cons_append, triviaLength, if_neg (Ne.symm other), ih later, List.cons_append,
      List.length_cons, Nat.add_right_comm]

theorem triviaLength_block (cs : List Char) :
    triviaLength .block cs =
      match indexOf? ['*', '/'] cs with
      | some i => i + 2 + triviaLength .code (cs.drop (i + 2))
      | none => cs.length := by
  induction cs with
  | nil => rfl
  | cons c cs ih =>
    rw [indexOf?]
    by_cases here : ['*', '/'].isPrefixOf (c :: cs) = true
    · obtain ⟨rest, is⟩ := List.isPrefixOf_iff_prefix.1 here
      obtain ⟨rfl, rfl⟩ : c = '*' ∧ cs = '/' :: rest := by simpa using is.symm
      rw [if_pos here, triviaLength, Nat.add_comm]
      rfl
    · have step : triviaLength .block (c :: cs) = triviaLength .block cs + 1 := by
        rw [triviaLength]
        rintro rest rfl rfl
        exact here (List.isPrefixOf_iff_prefix.2 ⟨rest, rfl⟩)
      rw [if_neg here, step, ih]
      cases indexOf? ['*', '/'] cs with
      | none => rfl
      | some i =>
        show i + 2 + triviaLength .code (cs.drop (i + 2)) + 1 =
          i + 1 + 2 + triviaLength .code (cs.drop (i + 2))
        omega

/-! ## Loops over bytes -/

section

variable {before cs after : List Char}

theorem offset_append (used rest : List Char) (n : Nat) :
    offset (used ++ rest) (used.length + n) = utf8Length used + offset rest n := by
  rw [offset, List.take_length_add_append, utf8Length_append, offset]

theorem utf8Length_pos {used : List Char} (nonempty : used ≠ []) : 0 < utf8Length used := by
  cases used with
  | nil => exact absurd rfl nonempty
  | cons c used => exact Nat.add_pos_left c.utf8Size_pos _

theorem asciiOnly_eq {c : Char} (ascii : c.toNat < 128) : AsciiOnly (· = c) := by
  intro d is
  rwa [of_decide_eq_true is]

/-- A character of ASCII is the first byte of itself alone. -/
theorem leadByteChar_eq_iff {d : Char} (ascii : d.toNat < 128) (c : Char) :
    leadByteChar c = d ↔ c = d :=
  decide_eq_decide.1 ((asciiOnly_eq ascii).lead c)

theorem head?_lead_iff {d : Char} (ascii : d.toNat < 128) (cs : List Char) :
    cs.head?.map leadByteChar = some d ↔ cs.head? = some d := by
  cases cs with
  | nil => exact Iff.rfl
  | cons c cs =>
    rw [List.head?_cons, Option.map_some, Option.some_inj, Option.some_inj,
      leadByteChar_eq_iff ascii]

theorem utf8Length_ascii {c : Char} (ascii : c.toNat < 128) : utf8Length [c] = 1 := by
  have length := congrArg List.length (units_ascii ascii)
  rwa [List.length_map, String.length_utf8EncodeChar] at length

theorem asciiOnly_blank : AsciiOnly isAsciiBlank := by
  intro c is
  simp only [isAsciiBlank, Bool.or_eq_true, beq_iff_eq] at is
  rcases is with (((rfl | rfl) | rfl) | rfl) | rfl <;> decide

/-- One round over a region passes over a part of what is left, and the rest is left. -/
def Passes (before cs after : List Char) (rounds : Nat) : Prop :=
  ∃ used rest, cs = used ++ rest ∧ used ≠ [] ∧
    triviaLength .code cs = used.length + triviaLength .code rest ∧
    skipTrivia (before ++ (cs ++ after)) (utf8Length before + utf8Length cs) (rounds + 1)
      (utf8Length before) =
    skipTrivia (before ++ (cs ++ after)) (utf8Length before + utf8Length cs) rounds
      (utf8Length before + utf8Length used)

theorem getElem?_behind {c : Char} (ascii : c.toNat < 128) (before rest : List Char) :
    (units (before ++ c :: rest))[utf8Length before + 1]? = rest.head?.map leadByteChar := by
  have found := getElem?_units (before ++ [c]) rest
  rwa [utf8Length_append, utf8Length_ascii ascii, List.append_assoc] at found

/-- A round at a byte of the region. -/
theorem skipTrivia_cons (before cs after : List Char) (c : Char) (rounds : Nat) :
    skipTrivia (before ++ (c :: cs ++ after)) (utf8Length before + utf8Length (c :: cs))
      (rounds + 1) (utf8Length before) =
    (let text := before ++ (c :: cs ++ after)
     let pos := utf8Length before
     let stop := pos + utf8Length (c :: cs)
     let next := (units text)[pos + 1]?
     if isAsciiBlank c then skipTrivia text stop rounds (pos + 1)
     else if c = '/' ∧ next = some '/' then
       match (units (c :: cs)).findIdx? (· = '\n') with
       | some i => skipTrivia text stop rounds (pos + i + 1)
       | none => skipTrivia text stop rounds stop
     else if c = '/' ∧ next = some '*' then do
       let rest ← slice text (pos + 2) stop
       match find ['*', '/'] rest with
       | some i => skipTrivia text stop rounds (pos + 2 + i + 2)
       | none => skipTrivia text stop rounds stop
     else .ok pos) := by
  have inside : utf8Length before < utf8Length before + utf8Length (c :: cs) :=
    Nat.lt_add_of_pos_right (utf8Length_pos (List.cons_ne_nil c cs))
  have here : (byteAt (before ++ (c :: cs ++ after)) (utf8Length before) : Scan Char) =
    .ok (leadByteChar c) := byteAt_lead before _ c
  have whole : (byteSlice (before ++ (c :: cs ++ after)) (utf8Length before)
      (utf8Length before + utf8Length (c :: cs)) : Scan (List Char)) =
        .ok (units (c :: cs)) := byteSlice_middle before _ after
  have slash := leadByteChar_eq_iff (by decide : '/'.toNat < 128) c
  rw [skipTrivia, if_pos inside, here]
  refine if_congr (Bool.eq_iff_iff.1 (asciiOnly_blank.lead c)) rfl
    (if_congr (and_congr_left' slash) ?_ (if_congr (and_congr_left' slash) rfl rfl))
  exact congrArg (Except.bind · _) whole

theorem passes_blank {c : Char} (blank : isAsciiBlank c = true) (before cs after : List Char)
    (rounds : Nat) : Passes before (c :: cs) after rounds := by
  refine ⟨[c], cs, rfl, List.cons_ne_nil c [], ?_, ?_⟩
  · rw [triviaLength_blank blank, Nat.add_comm]
    rfl
  · rw [skipTrivia_cons, if_pos blank, utf8Length_ascii (asciiOnly_blank c blank)]

/-- The byte behind a slash, if it is of ASCII. -/
theorem behind_slash {d : Char} (ascii : d.toNat < 128) (before cs after : List Char) :
    (units (before ++ ('/' :: d :: cs ++ after)))[utf8Length before + 1]? = some d := by
  have behind := getElem?_behind (by decide : '/'.toNat < 128) before (d :: cs ++ after)
  rwa [List.cons_append, List.head?_cons, Option.map_some, leadByteChar_ascii ascii] at behind

theorem passes_line (before cs after : List Char) (rounds : Nat) :
    Passes before ('/' :: '/' :: cs) after rounds := by
  have behind := behind_slash (by decide : '/'.toNat < 128) before cs after
  have feedOnly := asciiOnly_eq (by decide : '\n'.toNat < 128)
  have round := skipTrivia_cons before ('/' :: cs) after '/' rounds
  dsimp only at round
  rw [if_neg (by decide), if_pos ⟨rfl, behind⟩] at round
  by_cases feed : '\n' ∈ cs
  · obtain ⟨lead, rest, rfl, none⟩ := List.eq_append_cons_of_mem feed
    have apart : ∀ c ∈ '/' :: '/' :: lead, decide (c = '\n') = false := by
      simpa using fun c mem => ne_of_mem_of_not_mem mem none
    have found := feedOnly.findIdx?_some apart (decide_eq_true rfl) rest
    have length : utf8Length ('/' :: '/' :: lead ++ ['\n']) = utf8Length ('/' :: '/' :: lead) + 1 := by
      rw [utf8Length_append, utf8Length_ascii (by decide)]
    refine ⟨'/' :: '/' :: lead ++ ['\n'], rest, by simp, by simp, ?_, ?_⟩
    · rw [triviaLength, triviaLength_line_append none]
      simp
      omega
    · rw [List.cons_append, List.cons_append] at found
      rw [round, found, length, ← Nat.add_assoc]
  · have apart : ∀ c ∈ '/' :: '/' :: cs, decide (c = '\n') = false := by
      simpa using fun c mem => ne_of_mem_of_not_mem mem feed
    refine ⟨'/' :: '/' :: cs, [], by simp, by simp, ?_, ?_⟩
    · rw [triviaLength, triviaLength_line feed]
      simp [triviaLength]
    · rw [round, feedOnly.findIdx?_none apart]

theorem passes_block (before cs after : List Char) (rounds : Nat) :
    Passes before ('/' :: '*' :: cs) after rounds := by
  have behind := behind_slash (by decide : '*'.toNat < 128) before cs after
  have inner := @slice_middle Failure (before ++ ['/', '*']) cs after
  have length : utf8Length ['/', '*'] = 2 := by decide
  have whole : utf8Length ('/' :: '*' :: cs) = 2 + utf8Length cs := by
    rw [← length, ← utf8Length_append]
    rfl
  have round := skipTrivia_cons before ('*' :: cs) after '/' rounds
  dsimp only at round
  rw [if_neg (by decide), if_neg (fun h => absurd (behind.symm.trans h.2) (by decide)),
    if_pos ⟨rfl, behind⟩] at round
  rw [utf8Length_append, length, Nat.add_assoc, ← whole, List.append_assoc] at inner
  have text : before ++ (['/', '*'] ++ (cs ++ after)) = before ++ ('/' :: '*' :: cs ++ after) := rfl
  rw [← text, inner] at round
  simp only [bind, Except.bind] at round
  have comment := triviaLength_block cs
  cases found : indexOf? ['*', '/'] cs with
  | none =>
    rw [found] at comment
    dsimp only at comment
    refine ⟨'/' :: '*' :: cs, [], by simp, by simp, ?_, ?_⟩
    · rw [triviaLength, comment]
      simp [triviaLength]
    · rw [← text, round, find, found]
      rfl
  | some i =>
    obtain ⟨lead, rest, rfl, rfl⟩ := indexOf?_eq_some found
    have behindMark : (lead ++ (['*', '/'] ++ rest)).drop (lead.length + 2) = rest := by
      rw [← List.drop_drop, List.drop_left' rfl]
      rfl
    have reach : utf8Length ('/' :: '*' :: (lead ++ ['*', '/'])) = 2 + utf8Length lead + 2 := by
      show 1 + (1 + utf8Length (lead ++ ['*', '/'])) = _
      rw [utf8Length_append, show utf8Length ['*', '/'] = 2 by decide]
      omega
    rw [found] at comment
    dsimp only at comment
    rw [behindMark] at comment
    refine ⟨'/' :: '*' :: (lead ++ ['*', '/']), rest, by simp, by simp, ?_, ?_⟩
    · rw [triviaLength, comment, List.length_cons, List.length_cons, List.length_append]
      exact Nat.add_right_comm _ _ 2
    · rw [← text, round, find, found, Option.map_some, offset, List.take_left' rfl, reach]
      simp only [Nat.add_assoc]

/-- Where no comment starts, nothing is passed over. -/
theorem skipTrivia_solid {c : Char} (solid : isAsciiBlank c = false) {before cs after : List Char}
    (noMark : c = '/' → ∀ d ∈ (cs ++ after).head?, d ≠ '/' ∧ d ≠ '*') (rounds : Nat) :
    skipTrivia (before ++ (c :: cs ++ after)) (utf8Length before + utf8Length (c :: cs))
      (rounds + 1) (utf8Length before) = .ok (utf8Length before) := by
  have apart {mark : Char} (ascii : mark.toNat < 128) (isMark : mark = '/' ∨ mark = '*') :
      ¬ (c = '/' ∧ (units (before ++ (c :: cs ++ after)))[utf8Length before + 1]? = some mark) := by
    rintro ⟨rfl, found⟩
    rw [List.cons_append, getElem?_behind (by decide)] at found
    have other := noMark rfl mark ((head?_lead_iff ascii _).1 found)
    rcases isMark with rfl | rfl
    · exact other.1 rfl
    · exact other.2 rfl
  rw [skipTrivia_cons]
  dsimp only
  rw [if_neg (by simp [solid]), if_neg (apart (by decide) (.inl rfl)),
    if_neg (apart (by decide) (.inr rfl))]

/-- Blanks and comments end where they end among the characters, if the mark of a comment is not
cut in two by the end of the region. -/
theorem skipTrivia_eq (closed : ∀ c ∈ after.head?, c ≠ '/' ∧ c ≠ '*') {rounds : Nat}
    (enough : utf8Length cs < rounds) :
    skipTrivia (before ++ (cs ++ after)) (utf8Length before + utf8Length cs) rounds
      (utf8Length before) = .ok (utf8Length before + offset cs (triviaLength .code cs)) := by
  induction rounds generalizing before cs with
  | zero => exact absurd enough (Nat.not_lt_zero _)
  | succ rounds ih =>
    have further (passes : Passes before cs after rounds) :
        skipTrivia (before ++ (cs ++ after)) (utf8Length before + utf8Length cs) (rounds + 1)
          (utf8Length before) =
            .ok (utf8Length before + offset cs (triviaLength .code cs)) := by
      obtain ⟨used, rest, split, nonempty, length, round⟩ := passes
      have positive := utf8Length_pos nonempty
      have later := @ih (before ++ used) rest (by
        rw [split, utf8Length_append] at enough
        omega)
      rw [utf8Length_append, Nat.add_assoc, ← utf8Length_append, ← split, Nat.add_assoc,
        List.append_assoc, ← List.append_assoc used, ← split] at later
      rw [round, later, length, split, offset_append]
    cases cs with
    | nil =>
      rw [skipTrivia]
      exact if_neg (Nat.lt_irrefl _)
    | cons c cs =>
      by_cases blank : isAsciiBlank c = true
      · exact further (passes_blank blank before cs after rounds)
      have solid := Bool.eq_false_iff.2 blank
      by_cases mark : c = '/' ∧ ∃ d ∈ cs.head?, d = '/' ∨ d = '*'
      · obtain ⟨rfl, d, mem, is⟩ := mark
        obtain ⟨cs, rfl⟩ := List.head?_eq_some_iff.1 mem
        rcases is with rfl | rfl
        · exact further (passes_line before cs after rounds)
        · exact further (passes_block before cs after rounds)
      have noMark (slash : c = '/') (d : Char) (mem : d ∈ (cs ++ after).head?) : d ≠ '/' ∧ d ≠ '*' := by
        cases cs with
        | nil => exact closed d mem
        | cons d' cs =>
          cases mem
          exact ⟨fun is => mark ⟨slash, d, rfl, .inl is⟩, fun is => mark ⟨slash, d, rfl, .inr is⟩⟩
      have none : triviaLength .code (c :: cs) = 0 := by
        rw [triviaLength]
        · rw [if_neg blank]
        · rintro rest rfl rfl
          exact mark ⟨rfl, '/', rfl, .inl rfl⟩
        · rintro rest rfl rfl
          exact mark ⟨rfl, '*', rfl, .inr rfl⟩
      rw [skipTrivia_solid solid noMark, none]
      rfl

end

end SurfaceShading.Grammar.Bytewise
