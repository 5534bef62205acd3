/-
  Places and regions in the text of a shader. Positions count characters, so none falls
  inside one.
-/
import SurfaceShading.Shader.Grammar.Cause
import SurfaceShading.Text.Blank

namespace SurfaceShading.Grammar

/-- A region of a text: the position of its first character, and its characters. -/
structure Span where
  start : Nat
  chars : List Char
  deriving Repr, DecidableEq

/-- A cause and the position it belongs to. -/
structure Failure where
  position : Nat
  cause : ParseCause
  deriving Repr, DecidableEq

/-- The line of a position, one more than the line feeds before it. -/
def lineAt (text : List Char) (position : Nat) : Nat := (text.take position).count '\n' + 1

/-- A failure with its line in place of its position. -/
def Failure.toError (text : List Char) (f : Failure) : ParseError :=
  ⟨lineAt text f.position, f.cause⟩

namespace Span

/-- The region of a whole text. -/
def whole (text : List Char) : Span := ⟨0, text⟩

def size (s : Span) : Nat := s.chars.length

/-- The region without its first characters. -/
def drop (s : Span) (n : Nat) : Span := ⟨s.start + n, s.chars.drop n⟩

/-- The first characters of the region. -/
def take (s : Span) (n : Nat) : Span := ⟨s.start, s.chars.take n⟩

/-- The lines of the region, each without the line feed that ends it. -/
def lines (s : Span) : List Span :=
  placed s.start (Text.splitAtChar '\n' s.chars)
where
  /-- Pieces with one character between them, the first at a position. -/
  placed (start : Nat) : List (List Char) → List Span
    | [] => []
    | piece :: pieces => ⟨start, piece⟩ :: placed (start + piece.length + 1) pieces

/-- The region is the piece of a text that stands at its position. -/
def Within (text : List Char) (s : Span) : Prop :=
  s.start ≤ text.length ∧ s.chars <+: text.drop s.start

@[simp] theorem size_drop (s : Span) (n : Nat) : (s.drop n).size = s.size - n := by
  simp [drop, size]

theorem size_take_le (s : Span) (n : Nat) : (s.take n).size ≤ s.size :=
  Nat.le_trans (Nat.le_of_eq List.length_take) (Nat.min_le_right n s.chars.length)

end Span

/-- A region shorter than a number of characters. -/
abbrev Shorter (n : Nat) := { s : Span // s.size < n }

end SurfaceShading.Grammar
