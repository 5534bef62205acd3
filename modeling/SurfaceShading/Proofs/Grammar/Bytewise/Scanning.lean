/-
  A loop over the pieces of a region. A byte inside a character is passed over alone, so the loop
  meets the next character all the same, and it ends before its rounds do: `Scanner.loop_eq`
  carries what each step of a reader of characters does over to the whole loop.
-/
import SurfaceShading.Proofs.Grammar.Bytewise.Regions

namespace SurfaceShading.Grammar.Bytewise

open Text

section

variable {text : List Char} {stop : Nat} {s : Span}

/-! ## Pieces of a scan -/

/-- The outcomes of reading the next piece. -/
theorem next_cases (s : Span) :
    (s.skipTrivia.chars = [] ∧ s.next = .finished) ∨
    (∃ cs, s.skipTrivia.chars = '"' :: cs ∧
      ((∃ failure, s.skipTrivia.quoted = .error failure ∧ s.next = .broken failure) ∨
      ∃ content, ∃ after : Shorter s.skipTrivia.size, ∃ rest : Shorter s.size,
        s.skipTrivia.quoted = .ok (content, after) ∧ s.next = .string rest ∧
          rest.val = after.val)) ∨
    ∃ c cs, s.skipTrivia.chars = c :: cs ∧ c ≠ '"' ∧
      ((isNameStart c = true ∧ ∃ rest : Shorter s.size,
        s.next = .name s.skipTrivia.start (String.ofList (c :: cs.takeWhile isNameChar)) rest ∧
          rest.val = s.skipTrivia.drop (c :: cs.takeWhile isNameChar).length) ∨
      (isNameStart c = false ∧ ∃ rest : Shorter s.size,
        s.next = .other s.skipTrivia.start c rest ∧ rest.val = s.skipTrivia.drop 1)) := by
  unfold Span.next
  dsimp only
  split
  · next none => exact .inl ⟨none, rfl⟩
  · next c cs some =>
    split
    · next quote =>
      subst quote
      refine .inr (.inl ⟨cs, some, ?_⟩)
      split
      · next content after read => exact .inr ⟨content, after, _, read, rfl, rfl⟩
      · next failure read => exact .inl ⟨failure, read, rfl⟩
    · next other =>
      refine .inr (.inr ⟨c, cs, some, other, ?_⟩)
      split
      · next start => exact .inl ⟨start, _, rfl, rfl⟩
      · next start => exact .inr ⟨Bool.eq_false_iff.2 start, _, rfl, rfl⟩

/-- A piece, with offsets for places. -/
def piece (text : List Char) {n : Nat} : Token n → Scan Piece
  | .finished => .ok .finished
  | .string rest => .ok (.string (offset text rest.val.start))
  | .broken failure => fail (offset text failure.position) failure.cause
  | .name position word rest =>
    .ok (.name (offset text position) word (offset text rest.val.start))
  | .other position _ _ => .ok (.other (offset text position + 1))

theorem asciiOnly_nameStart : AsciiOnly isNameStart :=
  fun c start => asciiOnly_nameChar c (isNameChar_of_start start)

/-- A name at the start of a region is read up to its end, and what follows is a region. -/
theorem word_eq {ε : Type} (region : Region text stop s) {c : Char} {cs : List Char}
    (chars : s.chars = c :: cs) (start : isNameStart c = true) :
    (name text stop (offset text s.start) : Except (Stop ε) _) =
      .ok (c :: cs.takeWhile isNameChar,
        offset text (s.drop (c :: cs.takeWhile isNameChar).length).start) ∧
    (c :: cs.takeWhile isNameChar).length ≤ s.size ∧
    Region text stop (s.drop (c :: cs.takeWhile isNameChar).length) := by
  have word : s.chars.takeWhile isNameChar = c :: cs.takeWhile isNameChar := by
    rw [chars, List.takeWhile_cons_of_pos (isNameChar_of_start start)]
  have length := (List.takeWhile_prefix (l := s.chars) isNameChar).length_le
  have read := @name_eq _ _ _ ε region
  rw [word] at length read
  exact ⟨read, length, (region.drop length).1⟩

theorem next_eq (region : Region text stop s) :
    next text stop (offset text s.start) = piece text s.next := by
  obtain ⟨skipped, region'⟩ := trivia_eq region
  rw [next, skipped]
  simp only [bind, Except.bind]
  rw [peek_eq region']
  dsimp only
  rcases next_cases s with ⟨none, is⟩ | ⟨cs, chars, read⟩ | ⟨c, cs, chars, other, read⟩
  · rw [none, is]
    rfl
  · rw [chars, List.head?_cons, Option.map_some, leadByteChar_ascii (by decide)]
    dsimp only
    rw [if_pos rfl, quoted_eq region']
    rcases read with ⟨failure, broken, is⟩ | ⟨content, after, rest, ok, is, same⟩
    · rw [broken, is]
      rfl
    · rw [ok, is, piece, same]
      rfl
  · rw [chars, List.head?_cons, Option.map_some]
    dsimp only
    rw [if_neg (mt (leadByteChar_eq_iff (by decide) c).1 other), asciiOnly_nameStart.lead]
    rcases read with ⟨start, rest, is, place⟩ | ⟨start, rest, is, -⟩
    · rw [if_pos start, (word_eq region' chars start).1, is, piece, place]
    · rw [start, if_neg Bool.false_ne_true, is]
      rfl

/-- What follows a piece is a region with the same end. -/
theorem next_region (region : Region text stop s) :
    match s.next with
    | .finished => True
    | .broken _ => True
    | .string rest => Region text stop rest.val
    | .name _ _ rest => Region text stop rest.val
    | .other position c rest => ∃ t cs, Region text stop t ∧ t.start = position ∧
        t.chars = c :: cs ∧ offset text s.start ≤ offset text position ∧ rest.val = t.drop 1 ∧
        Region text stop rest.val := by
  obtain ⟨-, region'⟩ := trivia_eq region
  rcases next_cases s with ⟨-, is⟩ | ⟨cs, -, ⟨_, -, is⟩ | ⟨content, after, rest, ok, is, same⟩⟩ |
    ⟨c, cs, chars, -, ⟨start, rest, is, place⟩ | ⟨-, rest, is, place⟩⟩
  · rw [is]
    trivial
  · rw [is]
    trivial
  · rw [is]
    dsimp only
    rw [same]
    exact quoted_region region' ok
  · rw [is]
    dsimp only
    rw [place]
    refine (region'.drop ?_).1
    rw [Span.size, chars]
    exact Nat.succ_le_succ (List.takeWhile_prefix _).length_le
  · rw [is]
    refine ⟨s.skipTrivia, cs, region', rfl, chars, ?_, place, ?_⟩
    · rw [Span.skipTrivia, (region.drop (triviaLength_le .code s.chars)).2]
      exact Nat.le_add_right _ _
    rw [place]
    refine (region'.drop ?_).1
    rw [Span.size, chars]
    exact Nat.succ_le_succ (Nat.zero_le _)

/-- Inside a character a byte is a piece of its own. -/
theorem next_inside (region : Region text stop s) {c : Char} {cs : List Char}
    (chars : s.chars = c :: cs) {i : Nat} (positive : 0 < i) (inside : i < c.utf8Size) :
    next text stop (offset text s.start + i) = .ok (.other (offset text s.start + i + 1)) := by
  have high : 128 ≤ c.toNat := by
    refine Nat.not_lt.1 fun ascii => ?_
    have one : c.utf8Size = 1 := utf8Length_ascii ascii
    omega
  obtain ⟨before, after, rfl, start, rfl, -⟩ := region
  rw [start, offset_left, chars] at *
  obtain ⟨u, byte, highByte⟩ := @byteAt_inside Failure before (cs ++ after) c high i inside
  have reach : utf8Length before + i < utf8Length before + utf8Length (c :: cs) := by
    rw [utf8Length_cons]
    omega
  have none : trivia (before ++ (c :: cs ++ after)) (utf8Length before + utf8Length (c :: cs))
      (utf8Length before + i) = .ok (utf8Length before + i) := by
    rw [trivia, skipTrivia, if_pos reach, List.cons_append, byte]
    simp only [bind, Except.bind]
    have noSlash : u ≠ '/' := by
      rintro rfl
      exact absurd highByte (by decide)
    rw [asciiOnly_blank.high highByte, if_neg Bool.false_ne_true, if_neg (fun h => noSlash h.1),
      if_neg (fun h => noSlash h.1)]
  have noQuote : u ≠ '"' := by
    rintro rfl
    exact absurd highByte (by decide)
  rw [next, none]
  simp only [bind, Except.bind]
  rw [peek, if_pos reach, List.cons_append, byte]
  dsimp only [Except.map]
  rw [if_neg noQuote, asciiOnly_nameStart.high highByte, if_neg Bool.false_ne_true]

theorem offset_lt {i j : Nat} (order : i < j) (reach : j ≤ text.length) :
    offset text i < offset text j := by
  rw [offset_between (Nat.le_of_lt order)]
  refine Nat.lt_add_of_pos_right (utf8Length_pos ?_)
  rw [← List.length_pos_iff, List.length_drop, List.length_take_of_le reach]
  omega

theorem Region.reach (region : Region text stop s) : s.start + s.size ≤ text.length := by
  obtain ⟨before, after, rfl, start, -, -⟩ := region
  rw [start, Span.size, ← List.append_assoc, List.length_append, List.length_append]
  exact Nat.le_add_right _ _

/-- Of two regions with the same end, the shorter one starts at a greater offset. -/
theorem Region.advance {t : Span} (region : Region text stop s) (region' : Region text stop t)
    (shorter : t.size < s.size) :
    offset text s.start < offset text t.start ∧ offset text t.start ≤ stop := by
  have same : s.start + s.size = t.start + t.size := by
    have ends := region.stop_eq.symm.trans region'.stop_eq
    rcases Nat.lt_trichotomy (s.start + s.size) (t.start + t.size) with lt | eq | gt
    · exact absurd ends (Nat.ne_of_lt (offset_lt lt region'.reach))
    · exact eq
    · exact absurd ends (Nat.ne_of_gt (offset_lt gt region.reach))
  have reach := region'.reach
  refine ⟨offset_lt (by omega) (by omega), ?_⟩
  rw [region'.stop_eq, offset_between (Nat.le_add_right _ _)]
  exact Nat.le_add_right _ _

end

/-! ## The loop -/

section

variable {ε σ τ β : Type}

/-- A function of a state and a region does what a scan by byte offsets does with the next piece
of the region. The scan has its own view of a state. -/
def Follows (r : Scanner ε σ β) (text : List Char) (stop : Nat) (view : τ → σ)
    (f : τ → Span → Except (Stop ε) β) (state : τ) (s : Span) : Prop :=
  match s.next with
  | .finished => f state s = r.finish (view state)
  | .broken failure =>
    f state s =
      .error (.failure (r.fails (view state) ⟨offset text failure.position, failure.cause⟩))
  | .string rest => f state s = f state rest
  | .other _ _ rest => f state s = f state rest
  | .name position word rest =>
    (∃ stopped, r.act (view state) (offset text position) word (offset text rest.val.start) =
      .error stopped ∧ f state s = .error stopped) ∨
    (∃ result, r.act (view state) (offset text position) word (offset text rest.val.start) =
      .ok (.done result) ∧ f state s = .ok result) ∨
    ∃ state' t, r.act (view state) (offset text position) word (offset text rest.val.start) =
      .ok (.more (view state') (offset text t.start)) ∧ Region text stop t ∧ t.size < s.size ∧
        f state s = f state' t

/-- A loop gives what the function gives that follows it, and its rounds are enough. -/
theorem Scanner.loop_eq (r : Scanner ε σ β) {text : List Char} {stop : Nat} {view : τ → σ}
    {f : τ → Span → Except (Stop ε) β}
    (follows : ∀ state s, Region text stop s → Follows r text stop view f state s)
    {s : Span} (region : Region text stop s) (state : τ) {rounds : Nat}
    (enough : stop - offset text s.start < rounds) :
    r.loop text stop rounds (view state) (offset text s.start) = f state s := by
  induction size : s.size using Nat.strong_induction_on generalizing s state rounds with
  | _ size ih =>
    subst size
    obtain ⟨rounds, rfl⟩ := Nat.exists_eq_succ_of_ne_zero (Nat.ne_zero_of_lt enough)
    have follow := follows state s region
    have rest := next_region region
    -- From a shorter region on, the rounds that are left are enough.
    have further {t : Span} (region' : Region text stop t) (shorter : t.size < s.size) (state : τ) :
        r.loop text stop rounds (view state) (offset text t.start) = f state t := by
      obtain ⟨advance, reach⟩ := region.advance region' shorter
      exact ih t.size shorter region' state (by omega) rfl
    rw [Scanner.loop, next_eq region]
    rw [Follows] at follow
    cases next : s.next with
    | finished =>
      rw [next] at follow
      exact follow.symm
    | broken failure =>
      rw [next] at follow
      exact follow.symm
    | string after =>
      rw [next] at follow rest
      exact (further rest after.property state).trans follow.symm
    | other position c after =>
      rw [next] at follow rest
      obtain ⟨t, cs, region', rfl, chars, le, place, region''⟩ := rest
      have last : offset text after.val.start = offset text t.start + c.utf8Size := by
        rw [place]
        exact @Region.offset_prefix _ _ _ region' [c] ⟨cs, chars.symm⟩
      obtain ⟨advance, reach⟩ := region.advance region'' after.property
      -- By the number of bytes that the character still has.
      have inside (left : Nat) : ∀ i rounds, i + left = c.utf8Size → 0 < i →
          stop - (offset text t.start + i) < rounds →
          r.loop text stop rounds (view state) (offset text t.start + i) = f state after.val := by
        induction left with
        | zero =>
          intro i rounds all _ enough
          rw [Nat.add_zero] at all
          rw [all, ← last]
          exact ih _ after.property region'' state (by rwa [all, ← last] at enough) rfl
        | succ left ihLeft =>
          intro i rounds all positive enough
          obtain ⟨rounds, rfl⟩ := Nat.exists_eq_succ_of_ne_zero (Nat.ne_zero_of_lt enough)
          rw [Scanner.loop, next_inside region' chars positive (by omega)]
          exact ihLeft (i + 1) rounds (by omega) (Nat.succ_pos i) (by omega)
      have size := c.utf8Size_pos
      refine (inside (c.utf8Size - 1) 1 rounds (by omega) Nat.one_pos ?_).trans follow.symm
      omega
    | name position word after =>
      rw [next] at follow rest
      dsimp only [piece, Except.mapError, bind, Except.bind] at follow ⊢
      rcases follow with ⟨stopped, acts, is⟩ | ⟨result, acts, is⟩ |
        ⟨state', t, acts, region', shorter, is⟩
      · rw [acts, is]
      · rw [acts, is]
      · rw [acts, is]
        exact further region' shorter state'

end

end SurfaceShading.Grammar.Bytewise
