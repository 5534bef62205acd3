/-
  JSON trees, and reading one from tokens. The reader keeps the containers that are open on a
  stack, so the depth of a text does not matter.
-/
import SurfaceShading.Json.Lexer

namespace SurfaceShading

/-- A JSON value. The members of an object are kept as they are written, keys that occur twice
included. A key or a string may be no text. -/
inductive Json where
  | null
  | bool (b : Bool)
  | number (literal : List Char)
  | string (text : Option String)
  | array (items : List Json)
  | object (members : List (Option String × Json))
  deriving Inhabited

namespace Json

/-- A container that is still open: what it holds so far, last first, and the key of the member
that is being read. -/
inductive Frame where
  | array (items : List Json)
  | object (members : List (Option String × Json)) (key : Option String)

/-- What may come next. -/
inductive State where
  /-- A value. -/
  | value (stack : List Frame)
  /-- The first item of an array, or its end. -/
  | item (stack : List Frame)
  /-- The first key of an object, or its end. -/
  | member (stack : List Frame)
  /-- A further key. -/
  | key (members : List (Option String × Json)) (stack : List Frame)
  /-- The colon after a key. -/
  | colon (members : List (Option String × Json)) (key : Option String) (stack : List Frame)
  /-- What follows a complete value. -/
  | done (value : Json) (stack : List Frame)

/-- A token where a value may start. -/
def startValue (stack : List Frame) : Token → Option State
  | .null => some (.done .null stack)
  | .bool b => some (.done (.bool b) stack)
  | .number literal => some (.done (.number literal) stack)
  | .string text => some (.done (.string text) stack)
  | .openBracket => some (.item stack)
  | .openBrace => some (.member stack)
  | _ => none

/-- A token after a complete value. -/
def endValue (v : Json) : List Frame → Token → Option State
  | .array items :: stack, .comma => some (.value (.array (v :: items) :: stack))
  | .array items :: stack, .closeBracket => some (.done (.array (v :: items).reverse) stack)
  | .object members key :: stack, .comma => some (.key ((key, v) :: members) stack)
  | .object members key :: stack, .closeBrace =>
    some (.done (.object ((key, v) :: members).reverse) stack)
  | _, _ => none

/-- Takes in one token. -/
def step : State → Token → Option State
  | .value stack, t => startValue stack t
  | .item stack, .closeBracket => some (.done (.array []) stack)
  | .item stack, t => startValue (.array [] :: stack) t
  | .member stack, .closeBrace => some (.done (.object []) stack)
  | .member stack, .string text => some (.colon [] text stack)
  | .member _, _ => none
  | .key members stack, .string text => some (.colon members text stack)
  | .key _ _, _ => none
  | .colon members key stack, .colon => some (.value (.object members key :: stack))
  | .colon _ _ _, _ => none
  | .done v stack, t => endValue v stack t

/-- Takes in tokens in order. -/
def run (state : State) : List Token → Option State
  | [] => some state
  | t :: ts => (step state t).bind fun next => run next ts

/-- The value that a list of tokens writes. -/
def ofTokens? (tokens : List Token) : Option Json :=
  match run (.value []) tokens with
  | some (.done v []) => some v
  | _ => none

/-- The value that a text writes. -/
def parse? (text : String) : Option Json := (lex? text.toList).bind ofTokens?

end Json

end SurfaceShading
