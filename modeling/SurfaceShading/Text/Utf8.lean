/-
  Texts as bytes: the UTF-8 form of a text, its reading back, and the sizes that turn a place
  in a text into a byte offset.
-/

namespace SurfaceShading.Text

/-- The UTF-8 bytes of a text. -/
def utf8 (s : String) : List UInt8 := s.toUTF8.data.toList

/-- The text whose UTF-8 form the bytes are, if they are well formed. -/
def ofUtf8? (bytes : List UInt8) : Option String := String.fromUTF8? ⟨bytes.toArray⟩

/-- The number of bytes a piece of text takes. -/
def utf8Length (cs : List Char) : Nat :=
  cs.foldr (fun c length => c.utf8Size + length) 0

/-- The first byte of a character, shown as the character of that number: a letter of ASCII
stands for itself, and any other character for a letter of Latin-1. -/
def leadByteChar (c : Char) : Char :=
  match (utf8 (String.singleton c)).head? with
  | some b => Char.ofNat b.toNat
  | none => c

end SurfaceShading.Text
