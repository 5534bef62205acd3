/-
  The pieces of a shader's text: blanks and comments, names, quoted strings, and blocks
  between braces. Each step that goes on leaves a shorter region.
-/
import SurfaceShading.Shader.Grammar.Span

namespace SurfaceShading.Grammar

def isNameStart (c : Char) : Bool := c.isAlpha || c == '_'

def isNameChar (c : Char) : Bool := c.isAlpha || c.isDigit || c == '_'

/-- Whether a text is a name: letters, digits and underscores, no digit first. -/
def isName : List Char → Bool
  | [] => false
  | c :: cs => isNameStart c && cs.all isNameChar

/-! ## Blanks and comments -/

/-- Whether the text at hand is code, a comment to the end of the line, or a comment between
its marks. -/
inductive Mode where
  | code
  | line
  | block
  deriving Repr, DecidableEq

/-- The number of leading characters that are blank or in comments. -/
def triviaLength : Mode → List Char → Nat
  | .code, '/' :: '/' :: cs => triviaLength .line cs + 2
  | .code, '/' :: '*' :: cs => triviaLength .block cs + 2
  | .code, c :: cs => if Text.isAsciiBlank c then triviaLength .code cs + 1 else 0
  | .line, c :: cs => triviaLength (if c = '\n' then .code else .line) cs + 1
  | .block, '*' :: '/' :: cs => triviaLength .code cs + 2
  | .block, _ :: cs => triviaLength .block cs + 1
  | _, [] => 0

/-- The region without the blanks and comments at its start. -/
def Span.skipTrivia (s : Span) : Span := s.drop (triviaLength .code s.chars)

theorem Span.size_skipTrivia_le (s : Span) : s.skipTrivia.size ≤ s.size := by
  simp [skipTrivia]

/-! ## Quoted strings -/

/-- The content of a string and what follows it. A string ends on its own line. -/
def Span.quoted (s : Span) : Except Failure (List Char × Shorter s.size) :=
  let t := s.skipTrivia
  match h : t.chars with
  | '"' :: cs =>
    let content := cs.takeWhile fun c => c ≠ '"' && c ≠ '\n'
    match cs.drop content.length with
    | '"' :: _ =>
      .ok (content, ⟨t.drop (content.length + 2), by
        have hs : t.size ≤ s.size := s.size_skipTrivia_le
        have ht : 0 < t.size := by simp [Span.size, h]
        rw [Span.size_drop]
        omega⟩)
    | _ => .error ⟨t.start, .unterminatedString⟩
  | _ => .error ⟨t.start, .expectedString⟩

/-! ## Blocks -/

/-- The number of characters before the closing mark of a group, with further groups open
inside it. -/
def closing (opener closer : Char) (depth : Nat) : List Char → Option Nat
  | [] => none
  | c :: cs =>
    if c = opener then (closing opener closer (depth + 1) cs).map (· + 1)
    else if c = closer then
      match depth with
      | 0 => some 0
      | depth + 1 => (closing opener closer depth cs).map (· + 1)
    else (closing opener closer depth cs).map (· + 1)

theorem closing_lt {opener closer : Char} {depth n : Nat} {cs : List Char}
    (h : closing opener closer depth cs = some n) : n < cs.length := by
  fun_induction closing opener closer depth cs generalizing n with
  | case1 => simp at h
  | case2 depth cs ih =>
    obtain ⟨m, hm, rfl⟩ := Option.map_eq_some_iff.1 h
    simpa using ih hm
  | case3 => simp_all; omega
  | case4 cs depth _ ih =>
    obtain ⟨m, hm, rfl⟩ := Option.map_eq_some_iff.1 h
    simpa using ih hm
  | case5 depth c cs _ _ ih =>
    obtain ⟨m, hm, rfl⟩ := Option.map_eq_some_iff.1 h
    simpa using ih hm

/-- The inside of a block, and what follows its closing brace. -/
structure Block (n : Nat) where
  body : Shorter n
  after : Shorter n

/-- The block of the first opening brace. Braces are counted as they stand, in strings and
comments too. -/
def Span.block (s : Span) : Except Failure (Block s.size) :=
  let lead := s.chars.takeWhile (· ≠ '\x7b')
  let inside := s.drop (lead.length + 1)
  if hl : lead.length < s.size then
    match hc : closing '\x7b' '\x7d' 0 inside.chars with
    | some n =>
      .ok ⟨⟨inside.take n, by
          have h := inside.size_take_le n
          simp only [inside, Span.size_drop] at h ⊢
          omega⟩,
        ⟨inside.drop (n + 1), by
          simp only [inside, Span.size_drop]
          omega⟩⟩
    | none => .error ⟨s.start + lead.length, .unmatchedBlock⟩
  else .error ⟨s.start, .expectedBlock⟩

/-! ## The next piece -/

/-- What comes next in a region of a given size, blanks and comments apart. -/
inductive Token (n : Nat) where
  | finished
  | string (rest : Shorter n)
  | broken (failure : Failure)
  | name (position : Nat) (text : String) (rest : Shorter n)
  | other (position : Nat) (c : Char) (rest : Shorter n)

/-- Reads the next piece of a region. -/
def Span.next (s : Span) : Token s.size :=
  let t := s.skipTrivia
  match h : t.chars with
  | [] => .finished
  | c :: cs =>
    have ht : 0 < t.size := by simp [Span.size, h]
    have hs : t.size ≤ s.size := s.size_skipTrivia_le
    if c = '"' then
      match t.quoted with
      | .ok (_, rest) => .string ⟨rest, Nat.lt_of_lt_of_le rest.property hs⟩
      | .error failure => .broken failure
    else if isNameStart c then
      let text := c :: cs.takeWhile isNameChar
      .name t.start (String.ofList text) ⟨t.drop text.length, by
        rw [Span.size_drop]
        simp only [text, List.length_cons]
        omega⟩
    else .other t.start c ⟨t.drop 1, by rw [Span.size_drop]; omega⟩

end SurfaceShading.Grammar
