/-
  Blank characters and the cuts of a text that depend on them: trimming, words, lines,
  and the removal of blank lines around a block of code.
-/

namespace SurfaceShading.Text

/-- The Unicode property White_Space. -/
def isBlank (c : Char) : Bool :=
  let n := c.toNat
  (9 ≤ n && n ≤ 13) || n == 0x20 || n == 0x85 || n == 0xA0 || n == 0x1680
    || (0x2000 ≤ n && n ≤ 0x200A) || n == 0x2028 || n == 0x2029 || n == 0x202F
    || n == 0x205F || n == 0x3000

/-- The five blank characters that separate tokens: space, tab, line feed, form feed and
carriage return. The vertical tab is not among them. -/
def isAsciiBlank (c : Char) : Bool :=
  c == ' ' || c == '\t' || c == '\n' || c == '\x0c' || c == '\r'

/-- Drops the blank characters at the end. -/
def trimEnd : List Char → List Char
  | [] => []
  | c :: cs =>
    match trimEnd cs with
    | [] => if isBlank c then [] else [c]
    | d :: ds => c :: d :: ds

/-- Drops the blank characters at both ends. -/
def trim (cs : List Char) : List Char :=
  trimEnd (cs.dropWhile isBlank)

/-- The pieces of a text between the occurrences of a separator; there is always one piece
more than there are separators. -/
def splitAtChar (sep : Char) : List Char → List (List Char)
  | [] => [[]]
  | c :: cs =>
    if c = sep then [] :: splitAtChar sep cs
    else
      match splitAtChar sep cs with
      | [] => [[c]]
      | piece :: pieces => (c :: piece) :: pieces

/-- The maximal runs of characters that are not blank. -/
def words : List Char → List (List Char)
  | [] => []
  | c :: cs =>
    if isBlank c then words cs
    else
      match cs with
      | [] => [[c]]
      | d :: _ =>
        if isBlank d then [c] :: words cs
        else
          match words cs with
          | [] => [[c]]
          | w :: ws => (c :: w) :: ws

/-- Drops one carriage return at the end. -/
def dropReturn : List Char → List Char
  | [] => []
  | ['\r'] => []
  | c :: cs => c :: dropReturn cs

/-- The lines of a text. A line feed ends a line, and a carriage return before it belongs to
the ending; a carriage return at the very end of the text stays. -/
def lines (cs : List Char) : List (List Char) :=
  endings (splitAtChar '\n' cs)
where
  /-- Every piece but the last was ended by a line feed. -/
  endings : List (List Char) → List (List Char)
    | [] => []
    | [piece] => if piece.isEmpty then [] else [piece]
    | piece :: pieces => dropReturn piece :: endings pieces

/-- Pieces with a separator between them. -/
def joinWith (sep : List Char) : List (List Char) → List Char
  | [] => []
  | [piece] => piece
  | piece :: pieces => piece ++ sep ++ joinWith sep pieces

/-- Whether a line holds nothing but blank characters. -/
def isBlankLine (line : List Char) : Bool := line.all isBlank

/-- The lines of a block of code without the blank lines before the first and after the last
line that holds something. -/
def trimBlankLines (code : List Char) : List Char :=
  let kept := (lines code).dropWhile isBlankLine
  joinWith ['\n'] (kept.reverse.dropWhile isBlankLine).reverse

/-- What follows a text at the start of another. -/
def after? (start cs : List Char) : Option (List Char) :=
  if start.isPrefixOf cs then some (cs.drop start.length) else none

/-- Where a text first occurs in another. -/
def indexOf? (needle : List Char) : List Char → Option Nat
  | [] => if needle.isEmpty then some 0 else none
  | c :: cs =>
    if needle.isPrefixOf (c :: cs) then some 0 else (indexOf? needle cs).map (· + 1)

/-- Whether a text occurs in another. -/
def occursIn (needle text : String) : Bool := (indexOf? needle.toList text.toList).isSome

/-- Trimming on strings. -/
def trimString (s : String) : String := String.ofList (trim s.toList)

end SurfaceShading.Text
