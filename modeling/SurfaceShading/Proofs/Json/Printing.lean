/-
  What is printed is read back.

  Main statement: the text of a value whose numbers are literals and whose strings and keys are
  texts is read as that value (`parse?_print`).
-/
import SurfaceShading.Proofs.Json.Strings
import SurfaceShading.Proofs.Number.Literal
import SurfaceShading.Proofs.Text.Cuts

namespace SurfaceShading.Json

/-- The members of an object whose keys are texts. -/
def keyed (members : List (String × Json)) : List (Option String × Json) :=
  members.map fun m => (some m.1, m.2)

/-- Values that have a text: numbers are literals, strings and keys are texts. -/
inductive Printable : Json → Prop where
  | null : Printable .null
  | bool (b : Bool) : Printable (.bool b)
  | number (l : Literal) : Printable (.number l.text)
  | string (s : String) : Printable (.string (some s))
  | array {items : List Json} (all : ∀ v ∈ items, Printable v) : Printable (.array items)
  | object {members : List (String × Json)} (all : ∀ m ∈ members, Printable m.2) :
      Printable (.object (keyed members))

/-! ## Reading token by token -/

/-- The state after the tokens of a text. -/
def readFrom? (s : State) (cs : List Char) : Option State := (lex? cs).bind (run s)

section

variable {s s' : State} {t : Token} {c : Char} {cs rest : List Char}

theorem readFrom?_nil (s : State) : readFrom? s [] = some s := by
  rw [readFrom?, lex?]
  rfl

theorem readFrom?_blank (blank : isBlank c = true) :
    readFrom? s (c :: cs) = readFrom? s cs := by
  rw [readFrom?, lex?, if_pos blank, readFrom?]

theorem readFrom?_newline (depth : Nat) :
    readFrom? s (newline depth ++ cs) = readFrom? s cs := by
  have spaces (n : Nat) : readFrom? s (List.replicate n ' ' ++ cs) = readFrom? s cs := by
    induction n with
    | zero => rfl
    | succ n ih =>
      rw [List.replicate_succ, List.cons_append, readFrom?_blank rfl, ih]
  rw [newline, List.cons_append, readFrom?_blank rfl, spaces]

/-- The first token moves the state. -/
theorem readFrom?_token (ink : isBlank c = false)
    (token : lexToken? (c :: cs) = some (t, rest)) (move : step s t = some s') :
    readFrom? s (c :: cs) = readFrom? s' rest := by
  have lexed : lex? (c :: cs) = (lex? rest).map (t :: ·) := by
    rw [lex?, if_neg (by simp [ink])]
    split
    · next none => cases none.symm.trans token
    · next same =>
      cases same.symm.trans token
      rfl
  rw [readFrom?, lexed, readFrom?]
  cases lex? rest with
  | none => rfl
  | some ts =>
    rw [Option.map_some, Option.bind_some, Option.bind_some, run, move, Option.bind_some]

end

/-! ## Where a value or a key is awaited -/

/-- A value may start here, and stands on a stack. -/
def Awaits (s : State) (stack : List Frame) : Prop :=
  ∀ t, t ≠ .closeBracket → step s t = startValue stack t

/-- A key may start here, behind members of an object on a stack. -/
def AwaitsKey (s : State) (members : List (Option String × Json)) (stack : List Frame) : Prop :=
  ∀ key, step s (.string key) = some (.colon members key stack)

/-- A text is read as a value wherever one is awaited, whatever follows that could not be of a
number. -/
def IsRead (v : Json) (text : List Char) : Prop :=
  ∀ ⦃s stack rest⦄, Awaits s stack → Stops rest →
    readFrom? s (text ++ rest) = readFrom? (.done v stack) rest

theorem awaits_value (stack : List Frame) : Awaits (.value stack) stack := fun _ _ => rfl

theorem awaits_item (stack : List Frame) : Awaits (.item stack) (.array [] :: stack) := by
  intro t other
  cases t with
  | closeBracket => exact absurd rfl other
  | _ => rfl

theorem stops_newline (depth : Nat) (cs : List Char) : Stops (newline depth ++ cs) := by
  rintro _ ⟨⟩
  decide

theorem stops_comma (cs : List Char) : Stops (',' :: cs) := by
  rintro _ ⟨⟩
  decide

/-! ## Values without parts -/

theorem readFrom?_quote {s s' : State} {k : String} (move : step s (.string (some k)) = some s')
    (rest : List Char) : readFrom? s (quote k ++ rest) = readFrom? s' rest := by
  have token := lexToken?_quote k rest
  have text : quote k ++ rest = '"' :: (k.toList.flatMap escapeChar ++ '"' :: rest) := by
    rw [quote, List.append_assoc]
    rfl
  rw [text] at token ⊢
  exact readFrom?_token rfl token move

theorem isRead_null : IsRead .null "null".toList := fun _ _ _ awaits _ =>
  readFrom?_token rfl rfl (awaits _ (by simp))

theorem isRead_true : IsRead (.bool true) "true".toList := fun _ _ _ awaits _ =>
  readFrom?_token rfl rfl (awaits _ (by simp))

theorem isRead_false : IsRead (.bool false) "false".toList := fun _ _ _ awaits _ =>
  readFrom?_token rfl rfl (awaits _ (by simp))

theorem isRead_string (s : String) : IsRead (.string (some s)) (quote s) := fun _ _ _ awaits _ =>
  readFrom?_quote (awaits _ (by simp)) _

theorem isRead_number (l : Literal) : IsRead (.number l.text) l.text := by
  intro s stack rest awaits stops
  obtain ⟨c, cs, text, start⟩ := l.exists_start
  have mark : ∀ d, d ≠ '-' → d.isDigit = false → c ≠ d := by
    rintro d minus digit rfl
    rcases start with same | same
    · exact minus same
    · cases digit.symm.trans same
  have token : lexToken? (l.text ++ rest) = some (.number l.text, rest) := by
    have span := l.numberSpan?_text stops
    rw [text, List.cons_append] at span ⊢
    simp [lexToken?, mark, span]
  have ink : isBlank c = false := by simp [isBlank, mark]
  rw [text, List.cons_append] at token ⊢
  exact readFrom?_token ink token (awaits _ (by simp))

/-! ## Arrays -/

section

variable {depth : Nat} {s : State} {stack : List Frame} {rest : List Char}

theorem prettyItems_ne_nil (v : Json) (items : List Json) :
    prettyItems depth (v :: items) ≠ [] := by
  rw [prettyItems]
  exact List.cons_ne_nil _ _

/-- The items of an array are read behind those that were read before. -/
theorem readFrom?_items {v : Json} {items acc : List Json}
    (all : ∀ w ∈ v :: items, IsRead w (pretty (depth + 1) w))
    (awaits : Awaits s (.array acc :: stack)) :
    readFrom? s (Text.joinWith (',' :: newline (depth + 1)) (prettyItems (depth + 1) (v :: items))
      ++ (newline depth ++ ']' :: rest)) =
    readFrom? (.done (.array (acc.reverse ++ v :: items)) stack) rest := by
  induction items generalizing v s acc with
  | nil =>
    have close : step (.done v (.array acc :: stack)) .closeBracket =
        some (.done (.array (acc.reverse ++ [v])) stack) := by
      rw [← List.reverse_cons]
      rfl
    rw [prettyItems, prettyItems, Text.joinWith,
      all v List.mem_cons_self awaits (stops_newline _ _), readFrom?_newline,
      readFrom?_token rfl rfl close]
  | cons next items ih =>
    have comma : step (.done v (.array acc :: stack)) .comma =
        some (.value (.array (v :: acc) :: stack)) := rfl
    rw [prettyItems, Text.joinWith_cons _ _ (prettyItems_ne_nil next items), List.append_assoc,
      List.append_assoc, List.cons_append, all v List.mem_cons_self awaits (stops_comma _),
      readFrom?_token rfl rfl comma, readFrom?_newline,
      ih (fun w mem => all w (List.mem_cons_of_mem v mem)) (awaits_value _), List.reverse_cons,
      List.append_assoc, List.singleton_append]

theorem isRead_array {items : List Json}
    (all : ∀ v ∈ items, IsRead v (pretty (depth + 1) v)) :
    IsRead (.array items) (pretty depth (.array items)) := by
  intro s stack rest awaits _
  have opened : step s .openBracket = some (.item stack) := awaits _ (by simp)
  cases items with
  | nil =>
    have close : step (.item stack) .closeBracket = some (.done (.array []) stack) := rfl
    rw [pretty, prettyItems, enclose, List.cons_append, readFrom?_token rfl rfl opened,
      List.singleton_append, readFrom?_token rfl rfl close]
  | cons v items =>
    have text : pretty depth (.array (v :: items)) ++ rest = '[' :: (newline (depth + 1) ++
        (Text.joinWith (',' :: newline (depth + 1)) (prettyItems (depth + 1) (v :: items)) ++
          (newline depth ++ ']' :: rest))) := by
      simp [pretty, prettyItems, enclose]
    rw [text, readFrom?_token rfl rfl opened, readFrom?_newline,
      readFrom?_items all (awaits_item stack)]
    rfl

/-! ## Objects -/

/-- A member is read up to its value. -/
theorem readFrom?_member {key : String} {v : Json} {text : List Char}
    {acc : List (Option String × Json)} (value : IsRead v text) (awaits : AwaitsKey s acc stack)
    (stops : Stops rest) :
    readFrom? s (quote key ++ [':', ' '] ++ text ++ rest) =
      readFrom? (.done v (.object acc (some key) :: stack)) rest := by
  have colon : step (.colon acc (some key) stack) .colon =
      some (.value (.object acc (some key) :: stack)) := rfl
  rw [List.append_assoc, List.append_assoc, readFrom?_quote (awaits _), List.cons_append,
    readFrom?_token rfl rfl colon, List.singleton_append, readFrom?_blank rfl,
    value (awaits_value _) stops]

/-- The members of an object are read behind those that were read before. -/
theorem readFrom?_members {m : String × Json} {members : List (String × Json)}
    {acc : List (Option String × Json)}
    (all : ∀ m' ∈ m :: members, IsRead m'.2 (pretty (depth + 1) m'.2))
    (awaits : AwaitsKey s acc stack) :
    readFrom? s (Text.joinWith (',' :: newline (depth + 1))
        (prettyMembers (depth + 1) (keyed (m :: members))) ++ (newline depth ++ '\x7d' :: rest)) =
      readFrom? (.done (.object (acc.reverse ++ keyed (m :: members))) stack) rest := by
  induction members generalizing m s acc with
  | nil =>
    obtain ⟨key, v⟩ := m
    have close : step (.done v (.object acc (some key) :: stack)) .closeBrace =
        some (.done (.object (acc.reverse ++ [(some key, v)])) stack) := by
      rw [← List.reverse_cons]
      rfl
    rw [keyed, List.map_singleton, prettyMembers, prettyMembers, Text.joinWith, Option.getD_some,
      readFrom?_member (all _ List.mem_cons_self) awaits (stops_newline _ _), readFrom?_newline,
      readFrom?_token rfl rfl close]
  | cons next members ih =>
    obtain ⟨key, v⟩ := m
    have comma : step (.done v (.object acc (some key) :: stack)) .comma =
        some (.key ((some key, v) :: acc) stack) := rfl
    have text : Text.joinWith (',' :: newline (depth + 1))
        (prettyMembers (depth + 1) (keyed ((key, v) :: next :: members))) ++
          (newline depth ++ '\x7d' :: rest) =
        quote key ++ [':', ' '] ++ pretty (depth + 1) v ++ (',' :: (newline (depth + 1) ++
          (Text.joinWith (',' :: newline (depth + 1))
            (prettyMembers (depth + 1) (keyed (next :: members))) ++
              (newline depth ++ '\x7d' :: rest)))) := by
      simp [keyed, prettyMembers, Text.joinWith]
    rw [text, readFrom?_member (all _ List.mem_cons_self) awaits (stops_comma _),
      readFrom?_token rfl rfl comma, readFrom?_newline,
      ih (fun m mem => all m (List.mem_cons_of_mem _ mem)) (fun _ => rfl), List.reverse_cons,
      List.append_assoc]
    rfl

theorem isRead_object {members : List (String × Json)}
    (all : ∀ m ∈ members, IsRead m.2 (pretty (depth + 1) m.2)) :
    IsRead (.object (keyed members)) (pretty depth (.object (keyed members))) := by
  intro s stack rest awaits _
  have opened : step s .openBrace = some (.member stack) := awaits _ (by simp)
  cases members with
  | nil =>
    have close : step (.member stack) .closeBrace = some (.done (.object []) stack) := rfl
    rw [keyed, List.map_nil, pretty, prettyMembers, enclose, List.cons_append,
      readFrom?_token rfl rfl opened, List.singleton_append, readFrom?_token rfl rfl close]
  | cons m members =>
    have text : pretty depth (.object (keyed (m :: members))) ++ rest =
        '\x7b' :: (newline (depth + 1) ++ (Text.joinWith (',' :: newline (depth + 1))
          (prettyMembers (depth + 1) (keyed (m :: members))) ++ (newline depth ++ '\x7d' :: rest))) := by
      simp [keyed, pretty, prettyMembers, enclose]
    rw [text, readFrom?_token rfl rfl opened, readFrom?_newline,
      readFrom?_members all fun _ => rfl]
    rfl

end

/-! ## Values -/

/-- A value that has a text is read from it, at every depth. -/
theorem isRead_pretty {v : Json} (printable : Printable v) (depth : Nat) :
    IsRead v (pretty depth v) := by
  induction printable generalizing depth with
  | null => exact isRead_null
  | bool b =>
    cases b with
    | true => exact isRead_true
    | false => exact isRead_false
  | number l => exact isRead_number l
  | string s => exact isRead_string s
  | array _ ih => exact isRead_array fun v mem => ih v mem (depth + 1)
  | object _ ih => exact isRead_object fun m mem => ih m mem (depth + 1)

/-- A printed value is read back. -/
theorem parse?_print {v : Json} (printable : Printable v) : parse? v.print = some v := by
  have done : readFrom? (.value []) (pretty 0 v) = some (.done v []) := by
    have read := isRead_pretty printable 0 (awaits_value []) Literal.stops_nil
    rw [List.append_nil, readFrom?_nil] at read
    exact read
  obtain ⟨tokens, lexed, ran⟩ := Option.bind_eq_some_iff.1 done
  rw [parse?, print, String.toList_ofList, lexed, Option.bind_some, ofTokens?, ran]

end SurfaceShading.Json
