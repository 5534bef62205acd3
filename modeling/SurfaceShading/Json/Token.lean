/-
  The tokens of a JSON text.
-/
import SurfaceShading.Number.Decimal

namespace SurfaceShading.Json

/-- A token. A number keeps its digits as they are written. A string in which an escape is half
of a surrogate pair is well formed but is no text. -/
inductive Token where
  | openBrace
  | closeBrace
  | openBracket
  | closeBracket
  | comma
  | colon
  | null
  | bool (b : Bool)
  | number (literal : List Char)
  | string (text : Option String)
  deriving Repr, DecidableEq

/-- The blank characters between tokens. -/
def isBlank (c : Char) : Bool := c == ' ' || c == '\n' || c == '\t' || c == '\r'

/-! ## Numbers -/

/-- The sign of an exponent, if it has one, and what follows. -/
def signSpan : List Char → List Char × List Char
  | '+' :: rest => (['+'], rest)
  | '-' :: rest => (['-'], rest)
  | rest => ([], rest)

/-- The sign of a number, if it has one, and what follows. Only a minus is written. -/
def minusSpan : List Char → List Char × List Char
  | '-' :: rest => (['-'], rest)
  | rest => ([], rest)

/-- The end of a number from its exponent on: the characters of it, and what follows. -/
def exponentSpan? (cs : List Char) : Option (List Char × List Char) :=
  match cs with
  | e :: rest =>
    if e = 'e' ∨ e = 'E' then
      let (sign, rest) := signSpan rest
      let (digits, rest) := spanDigits rest
      if digits.isEmpty then none else some (e :: sign ++ digits, rest)
    else some ([], cs)
  | [] => some ([], [])

/-- The end of a number from its point on. -/
def fractionSpan? (cs : List Char) : Option (List Char × List Char) :=
  match cs with
  | '.' :: rest => do
    let (digits, rest) := spanDigits rest
    if digits.isEmpty then none
    else
      let (exponent, rest) ← exponentSpan? rest
      some ('.' :: digits ++ exponent, rest)
  | cs => exponentSpan? cs

/-- A number at the start of a text. Its whole part has no leading zeros. -/
def numberSpan? (cs : List Char) : Option (List Char × List Char) := do
  let (sign, unsigned) := minusSpan cs
  let (whole, rest) := spanDigits unsigned
  match whole with
  | [] => none
  | '0' :: _ :: _ => none
  | whole => do
    let (tail, rest) ← fractionSpan? rest
    some (sign ++ whole ++ tail, rest)

/-! ## Strings -/

/-- The value of a hexadecimal digit. -/
def hexValue? (c : Char) : Option Nat :=
  if c.isDigit then some (c.toNat - 48)
  else if 'a' ≤ c && c ≤ 'f' then some (c.toNat - 87)
  else if 'A' ≤ c && c ≤ 'F' then some (c.toNat - 55)
  else none

/-- The number that four hexadecimal digits write. -/
def hexWord? (a b c d : Char) : Option Nat := do
  some (((← hexValue? a) * 16 + (← hexValue? b)) * 256 + (← hexValue? c) * 16 + (← hexValue? d))

/-- The character of an escape of one letter. -/
def escapedChar? (c : Char) : Option Char :=
  match c with
  | '"' => some '"'
  | '\\' => some '\\'
  | '/' => some '/'
  | 'b' => some '\x08'
  | 'f' => some '\x0c'
  | 'n' => some '\n'
  | 'r' => some '\r'
  | 't' => some '\t'
  | _ => none

/-- A piece of a string: a character, or the number of an escape of four digits. -/
inductive StringUnit where
  | char (c : Char)
  | word (n : Nat)
  deriving Repr, DecidableEq

/-- The units of a string up to its closing quote, and what follows. -/
def stringSpan? : List Char → Option (List StringUnit × List Char)
  | [] => none
  | '"' :: rest => some ([], rest)
  | '\\' :: 'u' :: a :: b :: c :: d :: rest => do
    let n ← hexWord? a b c d
    let (units, rest) ← stringSpan? rest
    some (.word n :: units, rest)
  | '\\' :: c :: rest => do
    let e ← escapedChar? c
    let (units, rest) ← stringSpan? rest
    some (.char e :: units, rest)
  | c :: rest =>
    if c.toNat < 32 then none
    else do
      let (units, rest) ← stringSpan? rest
      some (.char c :: units, rest)

/-- The characters of units. Two words that are a surrogate pair are one character, and one
that is half of a pair is none. -/
def decodeUnits? : List StringUnit → Option (List Char)
  | [] => some []
  | .char c :: rest => (decodeUnits? rest).map (c :: ·)
  | .word n :: rest =>
    if 0xD800 ≤ n ∧ n < 0xDC00 then
      match rest with
      | .word m :: rest =>
        if 0xDC00 ≤ m ∧ m < 0xE000 then
          (decodeUnits? rest).map
            (Char.ofNat (0x10000 + (n - 0xD800) * 0x400 + (m - 0xDC00)) :: ·)
        else none
      | _ => none
    else if 0xDC00 ≤ n ∧ n < 0xE000 then none
    else (decodeUnits? rest).map (Char.ofNat n :: ·)

/-- The text of units. -/
def textOfUnits (units : List StringUnit) : Option String :=
  (decodeUnits? units).map String.ofList

end SurfaceShading.Json
