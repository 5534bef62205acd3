/-
  The reader without places. What the steps of the reader find in a region depends on its
  characters alone, and where the region stands shows in failures only. Each step is said again
  on characters (`pieceOf`, `quoteOf`, `blockOf`), and the steps of the reader are shown to agree.

  A step that leaves something also does not depend on what follows later (`pieceOf_append`): it
  looks ahead by one character at most.
-/
import SurfaceShading.Proofs.Grammar.Bytewise.Scanning

namespace SurfaceShading.Grammar

open Bytewise (next_cases quoted_cases block_cases endsString)

/-- What comes next in a text, without its place, and the rest of the text behind it. -/
inductive Piece where
  | finished
  | broken
  | string (rest : List Char)
  | name (text : String) (rest : List Char)
  | other (c : Char) (rest : List Char)

/-- A token without its place. -/
def Token.piece {n : Nat} : Token n → Piece
  | .finished => .finished
  | .broken _ => .broken
  | .string rest => .string rest.val.chars
  | .name _ text rest => .name text rest.val.chars
  | .other _ c rest => .other c rest.val.chars

/-- A string and what follows it, from behind its first mark. -/
def stringOf (cs : List Char) : Option (List Char × List Char) :=
  match cs.dropWhile (!endsString ·) with
  | '"' :: rest => some (cs.takeWhile (!endsString ·), rest)
  | _ => none

/-- The next piece of a text. -/
def pieceOf (cs : List Char) : Piece :=
  match afterTrivia cs with
  | [] => .finished
  | c :: cs =>
    if c = '"' then
      match stringOf cs with
      | some (_, rest) => .string rest
      | none => .broken
    else if isNameStart c then
      .name (String.ofList (c :: cs.takeWhile isNameChar)) (cs.dropWhile isNameChar)
    else .other c cs

/-- The quoted string at the start of a text. -/
def quoteOf (cs : List Char) : Option (List Char × List Char) :=
  match afterTrivia cs with
  | '"' :: cs => stringOf cs
  | _ => none

/-- The inside of the block of the first opening brace, and what follows it. -/
def blockOf (cs : List Char) : Option (List Char × List Char) :=
  match cs.dropWhile (· ≠ '\x7b') with
  | [] => none
  | _ :: inside =>
    (closing '\x7b' '\x7d' 0 inside).map fun n => (inside.take n, inside.drop (n + 1))

/-! ## The reader agrees -/

theorem stringOf_ok {content rest : List Char} (inside : ∀ c ∈ content, endsString c = false) :
    stringOf (content ++ '"' :: rest) = some (content, rest) := by
  have pass : ∀ c ∈ content, (!endsString c) = true := fun c mem => by rw [inside c mem]; rfl
  unfold stringOf
  rw [List.dropWhile_append_of_pos pass, List.takeWhile_append_of_pos pass,
    List.dropWhile_cons_of_neg (by decide), List.takeWhile_cons_of_neg (by decide),
    List.append_nil]
  rfl

theorem stringOf_open {content rest : List Char} (inside : ∀ c ∈ content, endsString c = false)
    (cut : rest = [] ∨ ∃ rest', rest = '\n' :: rest') : stringOf (content ++ rest) = none := by
  have pass : ∀ c ∈ content, (!endsString c) = true := fun c mem => by rw [inside c mem]; rfl
  unfold stringOf
  rw [List.dropWhile_append_of_pos pass]
  rcases cut with rfl | ⟨rest, rfl⟩
  · rfl
  · rw [List.dropWhile_cons_of_neg (by decide)]
    rfl

theorem quoted_unplaced (s : Span) :
    (s.quoted.toOption.map fun found => (found.1, found.2.val.chars)) = quoteOf s.chars := by
  unfold quoteOf
  rw [← chars_skipTrivia]
  rcases quoted_cases s with ⟨unlike, is⟩ | ⟨content, rest, chars, inside, cut, is⟩ |
    ⟨content, rest, after, chars, inside, is, place⟩
  · rw [is]
    split
    · next cs some =>
      rw [some] at unlike
      exact absurd rfl unlike
    · rfl
  · rw [is, chars]
    exact (stringOf_open inside cut).symm
  · rw [is, chars]
    refine Eq.trans ?_ (stringOf_ok inside).symm
    show some (content, after.val.chars) = some (content, rest)
    rw [place, chars_drop, chars, List.drop_succ_cons, ← List.drop_drop, List.drop_left' rfl]
    rfl

theorem drop_takeWhile (p : Char → Bool) (cs : List Char) :
    cs.drop (cs.takeWhile p).length = cs.dropWhile p :=
  (congrArg (List.drop _) List.takeWhile_append_dropWhile.symm).trans (List.drop_left' rfl)

theorem next_unplaced (s : Span) : s.next.piece = pieceOf s.chars := by
  unfold pieceOf
  rw [← chars_skipTrivia]
  rcases next_cases s with ⟨none, is⟩ | ⟨cs, chars, read⟩ | ⟨c, cs, chars, other, read⟩
  · rw [none, is]
    rfl
  · have solid : afterTrivia s.skipTrivia.chars = '"' :: cs := by
      rw [chars]
      exact afterTrivia_solid (by decide) (by decide) cs
    have found : (s.skipTrivia.quoted.toOption.map fun found => (found.1, found.2.val.chars)) =
        stringOf cs := by
      rw [quoted_unplaced, quoteOf, solid]
      rfl
    rw [chars]
    dsimp only
    rw [if_pos rfl, ← found]
    rcases read with ⟨failure, broken, is⟩ | ⟨content, after, rest, ok, is, same⟩
    · rw [broken, is]
      rfl
    · rw [ok, is]
      exact congrArg Piece.string (congrArg Span.chars same)
  · rw [chars]
    dsimp only
    rw [if_neg other]
    rcases read with ⟨start, rest, is, place⟩ | ⟨start, rest, is, place⟩
    · rw [if_pos start, is]
      refine congrArg (Piece.name _) ?_
      rw [place, chars_drop, chars, List.length_cons, List.drop_succ_cons, drop_takeWhile]
    · rw [if_neg (by rw [start]; exact Bool.false_ne_true), is]
      refine congrArg (Piece.other c) ?_
      rw [place, chars_drop, chars]
      rfl

theorem block_unplaced (s : Span) :
    (s.block.toOption.map fun block => (block.body.val.chars, block.after.val.chars)) =
      blockOf s.chars := by
  unfold blockOf
  rcases block_cases s with ⟨none, is⟩ | ⟨lead, inside, chars, none, read⟩
  · have all : s.chars.dropWhile (· ≠ '\x7b') = [] := by
      rw [List.dropWhile_eq_nil_iff]
      intro c mem
      simp [ne_of_mem_of_not_mem mem none]
    rw [is, all]
    rfl
  · have left : s.chars.dropWhile (· ≠ '\x7b') = '\x7b' :: inside := by
      rw [chars, List.dropWhile_append_of_pos, List.dropWhile_cons_of_neg (by simp)]
      intro c mem
      simp [ne_of_mem_of_not_mem mem none]
    rw [left]
    dsimp only
    have drops : (s.drop (lead.length + 1)).chars = inside := by
      rw [chars_drop, chars]
      simp
    rcases read with ⟨closed, is⟩ | ⟨n, b, closed, is, body, after⟩
    · rw [is, closed]
      rfl
    · rw [is, closed]
      show some (b.body.val.chars, b.after.val.chars) = some (inside.take n, inside.drop (n + 1))
      rw [body, after, chars_drop, ← drops]
      rfl

/-! ## What follows later -/

/-- The end of blanks and comments is found by two characters behind it. -/
theorem triviaLength_append (mode : Mode) {u : List Char} (x y : List Char)
    (ahead : triviaLength mode (u ++ x) + 2 ≤ u.length) :
    triviaLength mode (u ++ y) = triviaLength mode (u ++ x) := by
  fun_induction triviaLength mode u with
  | case1 cs ih =>
    simp only [List.cons_append, triviaLength, List.length_cons] at ahead ⊢
    rw [ih (by omega)]
  | case2 cs ih =>
    simp only [List.cons_append, triviaLength, List.length_cons] at ahead ⊢
    rw [ih (by omega)]
  | case3 c cs noLine noBlock blank ih =>
    rw [List.cons_append, triviaLength_blank blank] at ahead ⊢
    rw [List.cons_append, triviaLength_blank blank, ih (by rw [List.length_cons] at ahead; omega)]
  | case4 c cs noLine noBlock solid =>
    -- The character is no blank, and the next one is at hand to tell that it opens no comment.
    cases cs with
    | nil => exact absurd (Nat.le_of_add_left_le ahead) (by simp)
    | cons d cs =>
      have here (z : List Char) : triviaLength .code (c :: d :: cs ++ z) = 0 := by
        rw [List.cons_append, List.cons_append, triviaLength, if_neg solid]
        · rintro _ rfl eq
          cases eq
          exact noLine cs rfl rfl
        · rintro _ rfl eq
          cases eq
          exact noBlock cs rfl rfl
      rw [here, here]
  | case5 c cs ih =>
    simp only [List.cons_append, triviaLength, List.length_cons] at ahead ⊢
    rw [ih (by omega)]
  | case6 cs ih =>
    simp only [List.cons_append, triviaLength, List.length_cons] at ahead ⊢
    rw [ih (by omega)]
  | case7 c cs noEnd ih =>
    cases cs with
    | nil => exact absurd (Nat.le_of_add_left_le ahead) (by simp)
    | cons d cs =>
      have here (z : List Char) : triviaLength .block (c :: d :: cs ++ z) =
          triviaLength .block (d :: cs ++ z) + 1 := by
        rw [List.cons_append, List.cons_append, triviaLength]
        rintro _ rfl eq
        cases eq
        exact noEnd cs rfl rfl
      rw [here, List.length_cons] at ahead
      rw [here, here, ih (by omega)]
  | case8 mode => exact absurd (Nat.le_of_add_left_le ahead) (by simp)

theorem afterTrivia_append {u v x : List Char} (y : List Char)
    (left : afterTrivia (u ++ x) = v ++ x) (ahead : 2 ≤ v.length) :
    afterTrivia (u ++ y) = v ++ y := by
  unfold afterTrivia at left ⊢
  have length := congrArg List.length left
  rw [List.length_drop, List.length_append, List.length_append] at length
  have within : triviaLength .code (u ++ x) + 2 ≤ u.length := by omega
  rw [List.drop_append_of_le_length (by omega)] at left
  rw [triviaLength_append .code x y within, List.drop_append_of_le_length (by omega),
    List.append_cancel_right left]

theorem stringOf_eq_some {cs content rest : List Char} (is : stringOf cs = some (content, rest)) :
    cs = content ++ '"' :: rest ∧ ∀ c ∈ content, endsString c = false := by
  unfold stringOf at is
  split at is
  · next rest' left =>
    cases is
    refine ⟨?_, fun c mem => ?_⟩
    · rw [← left, List.takeWhile_append_dropWhile]
    · simpa using List.mem_takeWhile_imp mem
  · cases is

/-- What a text has to begin with, blanks and comments apart, for a piece to come next. -/
inductive Begins (cs : List Char) : Piece → Prop where
  | string {content rest : List Char} (inside : ∀ c ∈ content, endsString c = false)
      (text : afterTrivia cs = '"' :: (content ++ '"' :: rest)) : Begins cs (.string rest)
  | name {c : Char} {run rest : List Char} (start : isNameStart c = true)
      (inside : ∀ d ∈ run, isNameChar d = true) (stop : ∀ d ∈ rest.head?, isNameChar d = false)
      (text : afterTrivia cs = c :: (run ++ rest)) :
      Begins cs (.name (String.ofList (c :: run)) rest)
  | other {c : Char} {rest : List Char} (noQuote : c ≠ '"') (noStart : isNameStart c = false)
      (text : afterTrivia cs = c :: rest) : Begins cs (.other c rest)

theorem Begins.pieceOf {cs : List Char} {p : Piece} (begins : Begins cs p) : pieceOf cs = p := by
  unfold Grammar.pieceOf
  cases begins with
  | string inside text =>
    rw [text]
    dsimp only
    rw [if_pos rfl, stringOf_ok inside]
  | @name c run rest start inside stop text =>
    have stops : rest.takeWhile isNameChar = [] ∧ rest.dropWhile isNameChar = rest := by
      cases rest with
      | nil => exact ⟨rfl, rfl⟩
      | cons d rest =>
        have not : ¬ isNameChar d = true := by simp [stop d rfl]
        exact ⟨List.takeWhile_cons_of_neg not, List.dropWhile_cons_of_neg not⟩
    rw [text]
    dsimp only
    rw [if_neg (isNameStart_solid start).2.2, if_pos start, List.takeWhile_append_of_pos inside,
      List.dropWhile_append_of_pos inside, stops.1, stops.2, List.append_nil]
  | other noQuote noStart text =>
    rw [text]
    dsimp only
    rw [if_neg noQuote, if_neg (by simp [noStart])]

theorem begins_of_pieceOf {cs : List Char} {p : Piece} (is : pieceOf cs = p)
    (more : p ≠ .finished) (whole : p ≠ .broken) : Begins cs p := by
  unfold pieceOf at is
  subst is
  cases solid : afterTrivia cs with
  | nil =>
    rw [solid] at more
    exact absurd rfl more
  | cons c rest =>
    rw [solid] at whole
    dsimp only at whole ⊢
    split
    · next quote =>
      subst quote
      rw [if_pos rfl] at whole
      split
      · next content rest read =>
        obtain ⟨text, inside⟩ := stringOf_eq_some read
        exact .string inside (text ▸ solid)
      · next none =>
        rw [none] at whole
        exact absurd rfl whole
    · next noQuote =>
      split
      · next start =>
        refine .name start (fun d mem => List.mem_takeWhile_imp mem) (fun d mem => ?_) ?_
        · have stops := List.head?_dropWhile_not isNameChar rest
          rw [Option.mem_def.1 mem] at stops
          simpa using stops
        · rw [List.takeWhile_append_dropWhile, solid]
      · next noStart => exact .other noQuote (Bool.eq_false_iff.2 noStart) solid

namespace Piece

/-- The piece with more text behind it. -/
def before (x : List Char) : Piece → Piece
  | finished => finished
  | broken => broken
  | string rest => string (rest ++ x)
  | name text rest => name text (rest ++ x)
  | other c rest => other c (rest ++ x)

/-- Something is left behind the piece. -/
def Leaves : Piece → Prop
  | finished => False
  | broken => False
  | string rest => rest ≠ []
  | name _ rest => rest ≠ []
  | other _ rest => rest ≠ []

end Piece

theorem Begins.append {u x : List Char} {p : Piece} (begins : Begins (u ++ x) (p.before x))
    (leaves : p.Leaves) (y : List Char) : Begins (u ++ y) (p.before y) := by
  cases p with
  | finished => exact leaves.elim
  | broken => exact leaves.elim
  | string rest =>
    cases begins with
    | @string content _ inside text =>
      have split : afterTrivia (u ++ x) = ('"' :: (content ++ '"' :: rest)) ++ x := by
        rw [text]
        simp
      refine .string inside ((afterTrivia_append y split ?_).trans (by simp))
      simp only [List.length_cons, List.length_append]
      omega
  | name text rest =>
    obtain ⟨d, rest, rfl⟩ := List.exists_cons_of_ne_nil leaves
    cases begins with
    | @name c run _ start inside stop text =>
      have split : afterTrivia (u ++ x) = (c :: (run ++ d :: rest)) ++ x := by
        rw [text]
        simp
      refine .name start inside stop ((afterTrivia_append y split ?_).trans (by simp))
      simp only [List.length_cons, List.length_append]
      omega
  | other c rest =>
    obtain ⟨d, rest, rfl⟩ := List.exists_cons_of_ne_nil leaves
    cases begins with
    | other noQuote noStart text =>
      refine .other noQuote noStart (@afterTrivia_append _ (c :: d :: rest) _ y text ?_)
      simp only [List.length_cons]
      omega

/-- A piece that leaves something does not depend on what follows later. -/
theorem pieceOf_append {u x : List Char} {p : Piece} (is : pieceOf (u ++ x) = p.before x)
    (leaves : p.Leaves) (y : List Char) : pieceOf (u ++ y) = p.before y := by
  refine ((begins_of_pieceOf is ?_ ?_).append leaves y).pieceOf
  · cases p <;> first | exact leaves.elim | nofun
  · cases p <;> first | exact leaves.elim | nofun

/-! ## Strings and blocks -/

theorem quoteOf_eq_some {cs content rest : List Char} : quoteOf cs = some (content, rest) ↔
    afterTrivia cs = '"' :: (content ++ '"' :: rest) ∧ ∀ c ∈ content, endsString c = false := by
  unfold quoteOf
  constructor
  · intro is
    split at is
    · next inside text =>
      obtain ⟨rfl, pass⟩ := stringOf_eq_some is
      exact ⟨text, pass⟩
    · cases is
  · rintro ⟨text, inside⟩
    rw [text]
    exact stringOf_ok inside

theorem quoteOf_append {u v x content : List Char} (is : quoteOf (u ++ x) = some (content, v ++ x))
    (y : List Char) : quoteOf (u ++ y) = some (content, v ++ y) := by
  obtain ⟨text, inside⟩ := quoteOf_eq_some.1 is
  have split : afterTrivia (u ++ x) = ('"' :: (content ++ '"' :: v)) ++ x := by
    rw [text]
    simp
  refine quoteOf_eq_some.2 ⟨(afterTrivia_append y split ?_).trans (by simp), inside⟩
  simp only [List.length_cons, List.length_append]
  omega

/-- A text of one more character, which opens or closes a group or neither. -/
theorem count_before_cons {opener closer c : Char} {depth depth' : Nat} {cs : List Char}
    (never : ∀ before, before <+: cs → before.count closer ≤ depth' + before.count opener)
    (one : depth' + [c].count closer = depth + [c].count opener) :
    ∀ before, before <+: c :: cs → before.count closer ≤ depth + before.count opener := by
  intro before is
  rcases List.prefix_cons_iff.1 is with rfl | ⟨rest, rfl, inside⟩
  · exact Nat.zero_le _
  · have later := never rest inside
    rw [← List.singleton_append, List.count_append, List.count_append]
    omega

/-- What stands before the mark that closes all groups. -/
theorem closing_eq_some {opener closer : Char} (apart : opener ≠ closer) {depth n : Nat}
    {cs : List Char} (found : closing opener closer depth cs = some n) :
    ∃ body rest, cs = body ++ closer :: rest ∧ body.length = n ∧
      (∀ before, before <+: body → before.count closer ≤ depth + before.count opener) ∧
      body.count closer = depth + body.count opener := by
  fun_induction closing opener closer depth cs generalizing n with
  | case1 => cases found
  | case2 depth cs ih =>
    obtain ⟨m, found', rfl⟩ := Option.map_eq_some_iff.1 found
    obtain ⟨body, rest, rfl, rfl, never, all⟩ := ih found'
    refine ⟨opener :: body, rest, rfl, rfl, count_before_cons never ?_, ?_⟩
    · simp [apart]
    · rw [List.count_cons_self, List.count_cons_of_ne apart, all]
      omega
  | case3 cs =>
    cases found
    exact ⟨[], cs, rfl, rfl, by simp, rfl⟩
  | case4 cs depth _ ih =>
    obtain ⟨m, found', rfl⟩ := Option.map_eq_some_iff.1 found
    obtain ⟨body, rest, rfl, rfl, never, all⟩ := ih found'
    refine ⟨closer :: body, rest, rfl, rfl, count_before_cons never ?_, ?_⟩
    · simp [apart.symm]
    · rw [List.count_cons_self, List.count_cons_of_ne apart.symm, all]
      omega
  | case5 depth c cs noOpener noCloser ih =>
    obtain ⟨m, found', rfl⟩ := Option.map_eq_some_iff.1 found
    obtain ⟨body, rest, rfl, rfl, never, all⟩ := ih found'
    refine ⟨c :: body, rest, rfl, rfl, count_before_cons never ?_, ?_⟩
    · simp [noOpener, noCloser]
    · rw [List.count_cons_of_ne noOpener, List.count_cons_of_ne noCloser, all]

/-- The inside of a block is balanced. -/
theorem blockOf_eq_some {cs body rest : List Char} : blockOf cs = some (body, rest) ↔
    ∃ lead, '\x7b' ∉ lead ∧ Balanced '\x7b' '\x7d' body ∧
      cs = lead ++ '\x7b' :: (body ++ '\x7d' :: rest) := by
  unfold blockOf
  constructor
  · intro is
    split at is
    · cases is
    · next c inside left =>
      obtain ⟨n, found, pair⟩ := Option.map_eq_some_iff.1 is
      obtain ⟨body', rest', rfl, rfl, never, all⟩ := closing_eq_some (by decide) found
      have brace : c = '\x7b' := by
        have stops := List.head?_dropWhile_not (· ≠ '\x7b') cs
        rw [left] at stops
        simpa using stops
      have parts : body' = body ∧ rest' = rest := by
        simpa [List.drop_left' rfl] using pair
      obtain ⟨rfl, rfl⟩ := parts
      refine ⟨cs.takeWhile (· ≠ '\x7b'), fun mem => ?_, ⟨?_, ?_⟩, ?_⟩
      · simpa using List.mem_takeWhile_imp mem
      · intro before is
        have counts := never before is
        rwa [Nat.zero_add] at counts
      · rw [all, Nat.zero_add]
      · subst brace
        rw [← left, List.takeWhile_append_dropWhile]
  · rintro ⟨lead, none, balanced, rfl⟩
    have left : (lead ++ '\x7b' :: (body ++ '\x7d' :: rest)).dropWhile (· ≠ '\x7b') =
        '\x7b' :: (body ++ '\x7d' :: rest) := by
      rw [List.dropWhile_append_of_pos, List.dropWhile_cons_of_neg (by simp)]
      intro c mem
      simp [ne_of_mem_of_not_mem mem none]
    rw [left]
    dsimp only
    rw [balanced.closing (by decide), Option.map_some, List.take_left' rfl, ← List.drop_drop,
      List.drop_left' rfl]
    rfl

theorem blockOf_append {u v x body : List Char} (is : blockOf (u ++ x) = some (body, v ++ x))
    (y : List Char) : blockOf (u ++ y) = some (body, v ++ y) := by
  obtain ⟨lead, none, balanced, text⟩ := blockOf_eq_some.1 is
  refine blockOf_eq_some.2 ⟨lead, none, balanced, ?_⟩
  have split : u ++ x = (lead ++ '\x7b' :: (body ++ '\x7d' :: v)) ++ x := by
    rw [text]
    simp
  rw [List.append_cancel_right split]
  simp

end SurfaceShading.Grammar
