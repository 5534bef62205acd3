/-
  Writing JSON, one member or item on a line, indented by two spaces.
-/
import SurfaceShading.Json.Tree
import SurfaceShading.Text.Blank

namespace SurfaceShading.Json

/-- Two digits of a number below two hundred and fifty-six, in lower case. -/
def hexByte (n : Nat) : List Char := [Nat.digitChar (n / 16), Nat.digitChar (n % 16)]

/-- The written form of one character of a string. -/
def escapeChar (c : Char) : List Char :=
  if c = '"' then ['\\', '"']
  else if c = '\\' then ['\\', '\\']
  else if c = '\x08' then ['\\', 'b']
  else if c = '\x0c' then ['\\', 'f']
  else if c = '\n' then ['\\', 'n']
  else if c = '\r' then ['\\', 'r']
  else if c = '\t' then ['\\', 't']
  else if c.toNat < 32 then ['\\', 'u', '0', '0'] ++ hexByte c.toNat
  else [c]

/-- A text between quotes. -/
def quote (s : String) : List Char := '"' :: s.toList.flatMap escapeChar ++ ['"']

/-- A new line at a depth. -/
def newline (depth : Nat) : List Char := '\n' :: List.replicate (2 * depth) ' '

/-- Puts written items between marks, each on a line of its own. -/
def enclose (opener closer : Char) (depth : Nat) : List (List Char) → List Char
  | [] => [opener, closer]
  | items =>
    opener :: newline (depth + 1) ++ Text.joinWith (',' :: newline (depth + 1)) items
      ++ newline depth ++ [closer]

mutual

/-- The text of a value at a depth. What is no text is written as the empty string. -/
def pretty (depth : Nat) : Json → List Char
  | .null => "null".toList
  | .bool true => "true".toList
  | .bool false => "false".toList
  | .number literal => literal
  | .string text => quote (text.getD "")
  | .array items => enclose '[' ']' depth (prettyItems (depth + 1) items)
  | .object members => enclose '\x7b' '\x7d' depth (prettyMembers (depth + 1) members)

/-- The texts of the items of an array. -/
def prettyItems (depth : Nat) : List Json → List (List Char)
  | [] => []
  | v :: rest => pretty depth v :: prettyItems depth rest

/-- The texts of the members of an object. -/
def prettyMembers (depth : Nat) : List (Option String × Json) → List (List Char)
  | [] => []
  | (key, v) :: rest =>
    (quote (key.getD "") ++ [':', ' '] ++ pretty depth v) :: prettyMembers depth rest

end

/-- The text of a value. -/
def print (v : Json) : String := String.ofList (pretty 0 v)

end SurfaceShading.Json
