/-
  How values are spelled. Whatever text is read as a value of a type, the value has that type and
  finite components. A vector is a list of numbers with commas between them; it may stand in
  parentheses and these behind a name, and blanks may stand around each number and around the
  whole (`Spelling`, `Listing`). None of that makes a difference (`Value.readFloats_listing`): what
  is read are the numbers that the texts between the commas are read as, one by one.

  The numbers themselves are those of `Value.readFloat`. It drops an `f` at the end before it
  trims, while a list trims its parts first; the two orders agree because no numeral has an `f`
  in it (`Value.readFloat_trim`).
-/
import SurfaceShading.Material.Value
import SurfaceShading.Proofs.Grammar.Pieces
import SurfaceShading.Proofs.Text.Lines
import SurfaceShading.Proofs.Value

namespace SurfaceShading

/-! ## Cutting and trimming -/

namespace Text

/-- Blanks around a text do not count. -/
theorem trim_around {before after : List Char} (cs : List Char)
    (blank : ∀ c ∈ before, isBlank c = true) (blank' : ∀ c ∈ after, isBlank c = true) :
    trim (before ++ cs ++ after) = trim cs := by
  obtain ⟨front, back, is, isFront, isBack⟩ := exists_trim cs
  have whole : before ++ cs ++ after = (before ++ front) ++ trim cs ++ (back ++ after) := by
    conv_lhs => rw [is]
    simp only [List.append_assoc]
  rw [whole]
  refine trim_padded (trimmed_trim cs) (fun c mem => ?_) fun c mem => ?_
  · exact (List.mem_append.1 mem).elim (blank c) (isFront c)
  · exact (List.mem_append.1 mem).elim (isBack c) (blank' c)

/-- What is put behind a text is put behind its last piece. -/
theorem exists_last_piece {sep : Char} {tail : List Char} (none : sep ∉ tail) (cs : List Char) :
    ∃ init last, splitAtChar sep cs = init ++ [last] ∧
      splitAtChar sep (cs ++ tail) = init ++ [last ++ tail] := by
  induction cs with
  | nil => exact ⟨[], [], rfl, splitAtChar_single none⟩
  | cons c cs ih =>
    obtain ⟨init, last, split, split'⟩ := ih
    rw [List.cons_append, splitAtChar, splitAtChar, split, split']
    by_cases same : c = sep
    · rw [if_pos same, if_pos same]
      exact ⟨[] :: init, last, rfl, rfl⟩
    · rw [if_neg same, if_neg same]
      cases init with
      | nil => exact ⟨[], c :: last, rfl, rfl⟩
      | cons first init => exact ⟨(c :: first) :: init, last, rfl, rfl⟩

/-- What is put in front of a text is put in front of its first piece. -/
theorem exists_first_piece {sep : Char} {head : List Char} (none : sep ∉ head) (cs : List Char) :
    ∃ first rest, splitAtChar sep cs = first :: rest ∧
      splitAtChar sep (head ++ cs) = (head ++ first) :: rest := by
  obtain ⟨first, rest, split⟩ := List.exists_cons_of_ne_nil (splitAtChar_ne_nil sep cs)
  refine ⟨first, rest, split, ?_⟩
  induction head with
  | nil => exact split
  | cons c head ih =>
    obtain ⟨other, none'⟩ := not_or.1 (mt List.mem_cons.2 none)
    rw [List.cons_append, splitAtChar, if_neg (Ne.symm other), ih none']
    rfl

/-- Blanks around a text do not count for its trimmed pieces either. -/
theorem map_trim_splitAtChar {sep : Char} {before after : List Char} (solid : isBlank sep = false)
    (cs : List Char) (blank : ∀ c ∈ before, isBlank c = true)
    (blank' : ∀ c ∈ after, isBlank c = true) :
    (splitAtChar sep (before ++ cs ++ after)).map trim = (splitAtChar sep cs).map trim := by
  have apart {blanks : List Char} (all : ∀ c ∈ blanks, isBlank c = true) : sep ∉ blanks :=
    fun mem => by rw [all sep mem] at solid; cases solid
  obtain ⟨init, last, split, split'⟩ := exists_last_piece (apart blank') (before ++ cs)
  obtain ⟨first, rest, cut, cut'⟩ := exists_first_piece (apart blank) cs
  have behind : trim (last ++ after) = trim last :=
    trim_around last (fun c (mem : c ∈ []) => nomatch mem) blank'
  have front : trim (before ++ first) = trim first := by
    have around := trim_around first blank fun c (mem : c ∈ []) => nomatch mem
    rwa [List.append_nil] at around
  calc (splitAtChar sep (before ++ cs ++ after)).map trim
      = (init ++ [last]).map trim := by
        rw [split', List.map_append, List.map_append, List.map_singleton, behind,
          List.map_singleton]
    _ = ((before ++ first) :: rest).map trim := by rw [← split, cut']
    _ = (splitAtChar sep cs).map trim := by rw [List.map_cons, front, cut, List.map_cons]

/-- The pieces of a text and of its trimmed form are the same, when they are trimmed. -/
theorem map_trim_splitAtChar_trim {sep : Char} (solid : isBlank sep = false) (cs : List Char) :
    (splitAtChar sep (trim cs)).map trim = (splitAtChar sep cs).map trim := by
  obtain ⟨front, back, is, isFront, isBack⟩ := exists_trim cs
  conv_rhs => rw [is]
  exact (map_trim_splitAtChar solid (trim cs) isFront isBack).symm

end Text

/-! ## Numerals -/

/-- The characters of numerals. -/
def isNumeric (c : Char) : Bool :=
  c.isDigit || c == '.' || c == 'e' || c == 'E' || c == '+' || c == '-'

theorem isNumeric_of_spanSign {cs : List Char} (rest : ∀ c ∈ (spanSign cs).2, isNumeric c = true) :
    ∀ c ∈ cs, isNumeric c = true := by
  unfold spanSign at rest
  split at rest
  · exact List.forall_mem_cons.2 ⟨rfl, rest⟩
  · exact List.forall_mem_cons.2 ⟨rfl, rest⟩
  · exact rest

theorem isNumeric_of_spanDigits {cs : List Char}
    (rest : ∀ c ∈ (spanDigits cs).2, isNumeric c = true) : ∀ c ∈ cs, isNumeric c = true := by
  intro c mem
  rw [← List.takeWhile_append_dropWhile (p := Char.isDigit) (l := cs), List.mem_append] at mem
  rcases mem with digit | later
  · simp [isNumeric, List.mem_takeWhile_imp digit]
  · exact rest c later

theorem Numeral.isNumeric_of_readExponent {cs : List Char} {e : Int}
    (read : readExponent? cs = some e) : ∀ c ∈ cs, isNumeric c = true := by
  cases cs with
  | nil => exact fun c mem => nomatch mem
  | cons mark cs =>
    rw [readExponent?] at read
    split at read
    · next is =>
      have digits : ∀ c ∈ (spanSign cs).2, isNumeric c = true := by
        intro c mem
        dsimp only at read
        split at read
        · cases read
        · next all =>
          have all' : (spanSign cs).2.all Char.isDigit = true := not_not.1 (not_or.1 all).2
          simp [isNumeric, List.all_eq_true.1 all' c mem]
      refine List.forall_mem_cons.2 ⟨?_, isNumeric_of_spanSign digits⟩
      rcases is with rfl | rfl <;> rfl
    · cases read

/-- A text that is read as a number has digits, a point, signs and marks of exponents in it. -/
theorem Numeral.isNumeric_of_read {cs : List Char} {n : Numeral} (read : read? cs = some n) :
    ∀ c ∈ cs, isNumeric c = true := by
  refine isNumeric_of_spanSign (isNumeric_of_spanDigits ?_)
  unfold read? at read
  dsimp only at read
  generalize (spanDigits (spanSign cs).2).2 = rest at read ⊢
  split at read
  · next fraction =>
    split at read
    · cases read
    · obtain ⟨e, readE, -⟩ := Option.map_eq_some_iff.1 read
      exact List.forall_mem_cons.2 ⟨rfl, isNumeric_of_spanDigits (isNumeric_of_readExponent readE)⟩
  · split at read
    · cases read
    · obtain ⟨e, readE, -⟩ := Option.map_eq_some_iff.1 read
      exact isNumeric_of_readExponent readE

namespace Value

/-! ## One number -/

theorem dropFloatSuffix_concat {c : Char} (suffix : c = 'f' ∨ c = 'F') (text : List Char) :
    dropFloatSuffix (text ++ [c]) = text := by
  rw [dropFloatSuffix, List.getLast?_concat]
  dsimp only
  rw [if_pos suffix, List.dropLast_concat]

theorem dropFloatSuffix_of_not {text : List Char}
    (other : ∀ c ∈ text.getLast?, ¬ (c = 'f' ∨ c = 'F')) : dropFloatSuffix text = text := by
  unfold dropFloatSuffix
  split
  · next c last => exact if_neg (other c last)
  · rfl

/-- A text is its number and the suffix, or has no suffix. -/
theorem dropFloatSuffix_cases (text : List Char) :
    (∃ c, (c = 'f' ∨ c = 'F') ∧ text = dropFloatSuffix text ++ [c]) ∨
      dropFloatSuffix text = text := by
  by_cases suffix : ∃ c ∈ text.getLast?, c = 'f' ∨ c = 'F'
  · obtain ⟨c, last, is⟩ := suffix
    obtain ⟨front, rfl⟩ := List.getLast?_eq_some_iff.1 last
    exact .inl ⟨c, is, by rw [dropFloatSuffix_concat is]⟩
  · exact .inr (dropFloatSuffix_of_not fun c last is => suffix ⟨c, last, is⟩)

theorem readFloat_eq_ok {text : List Char} {x : Binary32} :
    readFloat text = .ok x ↔ ∃ d, Decimal.read? (Text.trim (dropFloatSuffix text)) = some d ∧
      x = Binary32.ofDecimal d ∧ x.isFinite = true := by
  unfold readFloat
  cases Decimal.read? (Text.trim (dropFloatSuffix text)) with
  | none => exact iff_of_false nofun fun ⟨_, is, _⟩ => nomatch is
  | some d =>
    dsimp only
    split
    · next finite =>
      rw [Except.ok.injEq]
      constructor
      · rintro rfl
        exact ⟨d, rfl, rfl, finite⟩
      · rintro ⟨_, is, rfl, -⟩
        cases is
        rfl
    · next other =>
      refine iff_of_false nofun ?_
      rintro ⟨_, is, rfl, finite⟩
      cases is
      exact other finite

/-- No text without a numeral in it is read. -/
theorem trim_ne_nil_of_read {cs : List Char} {d : Decimal}
    (read : Decimal.read? (Text.trim cs) = some d) : Text.trim cs ≠ [] := by
  intro empty
  rw [empty] at read
  cases read

/-- A text that is read as a number is read so when it is trimmed first. -/
theorem readFloat_trim {text : List Char} {x : Binary32} (read : readFloat text = .ok x) :
    readFloat (Text.trim text) = .ok x ∧ Text.trim text ≠ [] := by
  obtain ⟨d, numeral, is⟩ := readFloat_eq_ok.1 read
  suffices same : Text.trim (dropFloatSuffix (Text.trim text)) = Text.trim (dropFloatSuffix text) ∧
      Text.trim text ≠ [] from ⟨readFloat_eq_ok.2 ⟨d, by rw [same.1]; exact numeral, is⟩, same.2⟩
  rcases dropFloatSuffix_cases text with ⟨c, suffix, split⟩ | none
  · generalize dropFloatSuffix text = body at numeral split ⊢
    obtain ⟨front, back, padded, isFront, isBack⟩ := Text.exists_trim body
    have last : Text.Trimmed [c] := by rcases suffix with rfl | rfl <;> decide
    have trimmed : Text.Trimmed (Text.trim body ++ back ++ [c]) :=
      (Text.trimmed_trim body).around (trim_ne_nil_of_read numeral) last (List.cons_ne_nil _ _) back
    have cut : Text.trim text = Text.trim body ++ back ++ [c] := by
      have whole : text = front ++ (Text.trim body ++ back ++ [c]) ++ [] := by
        conv_lhs => rw [split, padded]
        simp only [List.append_assoc, List.append_nil]
      rw [whole]
      exact Text.trim_padded trimmed isFront fun c mem => nomatch mem
    have behind : Text.trim (Text.trim body ++ back) = Text.trim (Text.trim body) :=
      Text.trim_around _ (fun c (mem : c ∈ []) => nomatch mem) isBack
    rw [cut, dropFloatSuffix_concat suffix, behind, (Text.trimmed_trim body).trim]
    exact ⟨rfl, List.append_ne_nil_of_right_ne_nil _ (List.cons_ne_nil _ _)⟩
  · rw [none] at numeral ⊢
    have solid : ∀ c ∈ (Text.trim text).getLast?, ¬ (c = 'f' ∨ c = 'F') := by
      intro c last suffix
      obtain ⟨n, readN, -⟩ := Option.map_eq_some_iff.1 numeral
      have numeric := Numeral.isNumeric_of_read readN c (List.mem_of_getLast? last)
      rcases suffix with rfl | rfl <;> cases numeric
    rw [dropFloatSuffix_of_not solid, (Text.trimmed_trim text).trim]
    exact ⟨rfl, trim_ne_nil_of_read numeral⟩

/-! ## Lists of numbers -/

/-- A text that is read as a number and holds no comma and no parenthesis, with blanks around. -/
structure Component where
  before : List Char
  text : List Char
  after : List Char
  number : Binary32
  reads : readFloat text = .ok number
  plain : ∀ c ∈ text, c ≠ ',' ∧ c ≠ '(' ∧ c ≠ ')'
  blank : ∀ c ∈ before, Text.isBlank c = true
  blank' : ∀ c ∈ after, Text.isBlank c = true

namespace Component

def written (c : Component) : List Char := c.before ++ c.text ++ c.after

theorem plain_written (c : Component) {d : Char} (mem : d ∈ c.written) :
    d ≠ ',' ∧ d ≠ '(' ∧ d ≠ ')' := by
  have solid {blanks : List Char} (blank : ∀ c ∈ blanks, Text.isBlank c = true) (mem : d ∈ blanks) :
      d ≠ ',' ∧ d ≠ '(' ∧ d ≠ ')' := by
    refine ⟨?_, ?_, ?_⟩ <;>
    · rintro rfl
      cases blank _ mem
  rcases List.mem_append.1 mem with mem | mem
  · rcases List.mem_append.1 mem with mem | mem
    · exact solid c.blank mem
    · exact c.plain d mem
  · exact solid c.blank' mem

/-- What a list makes of a component before it reads it. -/
theorem readFloat_written (c : Component) :
    readFloat (Text.trim c.written) = .ok c.number ∧ Text.trim c.written ≠ [] := by
  rw [written, Text.trim_around c.text c.blank c.blank']
  exact readFloat_trim c.reads

end Component

/-- A list of components with commas between them. -/
def listed (components : List Component) : List Char :=
  Text.joinWith [','] (components.map Component.written)

theorem mem_listed {components : List Component} {d : Char} (mem : d ∈ listed components) :
    d ≠ '(' ∧ d ≠ ')' := by
  rcases Text.mem_joinWith mem with comma | ⟨piece, listed, inside⟩
  · obtain rfl := List.mem_singleton.1 comma
    decide
  · obtain ⟨c, -, rfl⟩ := List.mem_map.1 listed
    exact (c.plain_written inside).2

/-- The parts of a list are read one by one. -/
theorem readParts_listed (components : List Component) :
    (((Text.splitAtChar ',' (listed components)).map Text.trim).filter (! ·.isEmpty)).mapM readFloat
      = .ok (components.map Component.number) := by
  have parts : ((Text.splitAtChar ',' (listed components)).map Text.trim).filter (! ·.isEmpty) =
      components.map fun c => Text.trim c.written := by
    by_cases none : components = []
    · rw [none]
      rfl
    · rw [listed, Text.splitAtChar_joinWith (by simpa using none), List.map_map,
        List.filter_eq_self.2]
      · rfl
      · intro part mem
        obtain ⟨c, -, rfl⟩ := List.mem_map.1 mem
        simpa using c.readFloat_written.2
      · intro piece mem comma
        obtain ⟨c, -, rfl⟩ := List.mem_map.1 mem
        exact (c.plain_written comma).1 rfl
  rw [parts]
  clear parts
  induction components with
  | nil => rfl
  | cons c components ih =>
    rw [List.map_cons, List.mapM_cons, c.readFloat_written.1, ih]
    rfl

/-! ## Spellings of a list -/

/-- How a list is put: bare, or in parentheses behind a name. Without a name it is just in
parentheses. -/
inductive Spelling where
  | bare
  | call (name : List Char) (legal : ∀ c ∈ name, isAlphanumeric c = true)

def Spelling.around (list : List Char) : Spelling → List Char
  | bare => list
  | call name _ => name ++ '(' :: (list ++ [')'])

/-- A text that lists components in some spelling, with blanks around it. -/
structure Listing where
  components : List Component
  spelling : Spelling
  before : List Char
  after : List Char
  blank : ∀ c ∈ before, Text.isBlank c = true
  blank' : ∀ c ∈ after, Text.isBlank c = true

namespace Listing

def written (l : Listing) : List Char :=
  l.before ++ l.spelling.around (listed l.components) ++ l.after

/-- The text as it stands in an attribute. -/
def text (l : Listing) : String := String.ofList l.written

def numbers (l : Listing) : List Binary32 := l.components.map Component.number

end Listing

theorem dropConstructor_of_not_mem {text : List Char} (none : '(' ∉ text) :
    dropConstructor text = text := by
  unfold dropConstructor
  dsimp only
  rw [if_neg]
  simp [none]

theorem dropConstructor_call {name : List Char} (legal : ∀ c ∈ name, isAlphanumeric c = true)
    (rest : List Char) : dropConstructor (name ++ '(' :: rest) = '(' :: rest := by
  have none : '(' ∉ name := fun mem => nomatch legal _ mem
  unfold dropConstructor
  dsimp only
  rw [Text.takeWhile_ne_append none, if_pos, List.drop_left' rfl]
  simp [List.all_eq_true.2 legal]

theorem dropParentheses_of_not_mem {text : List Char} (none : '(' ∉ text) :
    dropParentheses text = text := by
  cases text with
  | nil => rfl
  | cons c text =>
    unfold dropParentheses
    split
    · next is =>
      cases is
      exact absurd List.mem_cons_self none
    · rfl

theorem dropParentheses_enclosed (list : List Char) :
    dropParentheses ('(' :: (list ++ [')'])) = list := by
  rw [dropParentheses, if_pos List.getLast?_concat, List.dropLast_concat]

theorem isBlank_of_isAlphanumeric {c : Char} (is : isAlphanumeric c = true) :
    Text.isBlank c = false := by
  have legal : Grammar.isNameChar c = true := by
    rw [Grammar.isNameChar, Bool.or_eq_true]
    exact .inl is
  have range := Grammar.toNat_of_isNameChar legal
  simp only [Text.isBlank, Bool.or_eq_false_iff, Bool.and_eq_false_iff, decide_eq_false_iff_not,
    beq_eq_false_iff_ne]
  omega

theorem trimmed_call {name : List Char} (legal : ∀ c ∈ name, isAlphanumeric c = true)
    (list : List Char) : Text.Trimmed (name ++ '(' :: (list ++ [')'])) := by
  constructor
  · intro c first
    cases name with
    | nil =>
      cases first
      rfl
    | cons d name =>
      cases first
      exact isBlank_of_isAlphanumeric (legal c List.mem_cons_self)
  · intro c last
    rw [← List.cons_append, ← List.append_assoc, List.getLast?_concat] at last
    cases last
    rfl

/-- However a list is spelled, its numbers are read. -/
theorem readFloats_listing (l : Listing) : readFloats (Text.trim l.written) = .ok l.numbers := by
  obtain ⟨components, spelling, before, after, blank, blank'⟩ := l
  unfold readFloats Listing.written
  cases spelling with
  | bare =>
    have none : '(' ∉ Text.trim (listed components) :=
      fun mem => (mem_listed (Text.mem_trim mem)).1 rfl
    rw [Spelling.around, Text.trim_around _ blank blank', dropConstructor_of_not_mem none,
      dropParentheses_of_not_mem none, Text.map_trim_splitAtChar_trim rfl]
    exact readParts_listed components
  | call name legal =>
    rw [Spelling.around, Text.trim_padded (trimmed_call legal _) blank blank',
      dropConstructor_call legal, dropParentheses_enclosed]
    exact readParts_listed components

/-! ## Vectors -/

/-- The components of a vector that numbers give: one number is repeated. -/
def spread (count : Nat) : List Binary32 → List Binary32
  | [x] => List.replicate count x
  | xs => xs

theorem readComponents_eq {text : List Char} {xs : List Binary32} (read : readFloats text = .ok xs)
    (count : Nat) : readComponents count text =
      if xs.length = 1 ∨ xs.length = count then .ok (spread count xs)
      else .error (.componentCount count xs.length (String.ofList text)) := by
  rw [readComponents, read]
  match xs with
  | [] => exact if_congr (or_iff_right (Nat.ne_of_beq_eq_false rfl)).symm rfl rfl
  | [x] => exact (if_pos (.inl rfl)).symm
  | x :: y :: xs => exact if_congr (or_iff_right (by simp)).symm rfl rfl

theorem length_spread {count : Nat} {xs : List Binary32}
    (fits : xs.length = 1 ∨ xs.length = count) : (spread count xs).length = count := by
  match xs with
  | [] => exact fits.resolve_left nofun
  | [x] => exact List.length_replicate
  | x :: y :: xs => exact fits.resolve_left (by simp)

section

variable {t : ValueType} {text : List Char}

/-- A vector has the components that are read. -/
theorem read_of_readComponents (vector : 2 ≤ t.wordCount) {xs : List Binary32}
    (read' : readComponents t.wordCount text = .ok xs) (length : xs.length = t.wordCount) :
    ∃ v, read t text = .ok v ∧ v.type = t ∧ v.components = xs := by
  cases t with
  | float | int | bool => exact absurd vector (by decide)
  | vector2 =>
    match xs, length with
    | [x, y], _ => exact ⟨.vector2 x y, except_bind_eq_ok.2 ⟨_, read', rfl⟩, rfl, rfl⟩
  | vector3 =>
    match xs, length with
    | [x, y, z], _ => exact ⟨.vector3 x y z, except_bind_eq_ok.2 ⟨_, read', rfl⟩, rfl, rfl⟩
  | vector4 =>
    match xs, length with
    | [x, y, z, w], _ => exact ⟨.vector4 x y z w, except_bind_eq_ok.2 ⟨_, read', rfl⟩, rfl, rfl⟩

theorem read_of_readComponents_error (vector : 2 ≤ t.wordCount) {e : ValueError}
    (read' : readComponents t.wordCount text = .error e) : read t text = .error e := by
  cases t with
  | float | int | bool => exact absurd vector (by decide)
  | vector2 | vector3 | vector4 => exact congrArg (· >>= _) read'

/-- A vector is known by its type and its components. -/
theorem eq_of_components {v v' : Value} (vector : 2 ≤ v.type.wordCount) (type : v'.type = v.type)
    (same : v'.components = v.components) : v' = v := by
  cases v with
  | float | int | bool => exact absurd vector (show ¬ 2 ≤ 1 by decide)
  | vector2 | vector3 | vector4 =>
    cases v' <;> first
      | (cases same; rfl)
      | cases type

end

/-! ## Finite values -/

theorem finite_of_readFloat {text : List Char} {x : Binary32} (read : readFloat text = .ok x) :
    x.isFinite = true := by
  obtain ⟨_, -, -, finite⟩ := readFloat_eq_ok.1 read
  exact finite

theorem finite_of_mapM {parts : List (List Char)} {xs : List Binary32}
    (read : parts.mapM readFloat = .ok xs) : ∀ x ∈ xs, x.isFinite = true := by
  induction parts generalizing xs with
  | nil =>
    cases read
    exact fun x mem => nomatch mem
  | cons part parts ih =>
    rw [List.mapM_cons] at read
    obtain ⟨x, first, rest⟩ := except_bind_eq_ok.1 read
    obtain ⟨xs', later, is⟩ := except_bind_eq_ok.1 rest
    cases is
    exact List.forall_mem_cons.2 ⟨finite_of_readFloat first, ih later⟩

theorem finite_of_readComponents {count : Nat} {text : List Char} {xs : List Binary32}
    (read : readComponents count text = .ok xs) : ∀ x ∈ xs, x.isFinite = true := by
  obtain ⟨ys, readAll, -⟩ := except_bind_eq_ok.1 read
  have finite := finite_of_mapM readAll
  rw [readComponents_eq readAll] at read
  split at read
  · cases read
    match ys with
    | [] => exact finite
    | [y] =>
      intro x mem
      rw [(List.mem_replicate.1 mem).2]
      exact finite y List.mem_cons_self
    | y :: z :: ys => exact finite
  · cases read

/-- What is read is finite. -/
theorem finite_of_read {t : ValueType} {text : List Char} {v : Value}
    (is : read t text = .ok v) : v.isFinite = true := by
  cases t with
  | float =>
    obtain ⟨x, readX, rfl⟩ := except_map_eq_ok.1 is
    simpa [isFinite, components] using finite_of_readFloat readX
  | int | bool =>
    obtain ⟨_, _, rfl⟩ := except_map_eq_ok.1 is
    rfl
  | vector2 | vector3 | vector4 =>
    obtain ⟨xs, readXs, made⟩ := except_bind_eq_ok.1 is
    have finite := finite_of_readComponents readXs
    split at made
    · cases made
      exact List.all_eq_true.2 finite
    · cases made

/-- What is parsed has the type that was asked for, and is finite. -/
theorem parse_sound {type : PropertyType} {text : String} {v : Value}
    (is : parse type text = .ok v) : type = .value v.type ∧ v.isFinite = true := by
  cases type with
  | value t => exact ⟨by rw [type_of_parse is], finite_of_read is⟩
  | texture dimension => cases is

/-! ## The spelling makes no difference -/

theorem trim_text (l : Listing) : Text.trim l.text.toList = Text.trim l.written := by
  rw [Listing.text, String.toList_ofList]

/-- **Values are sound, and the spelling of a vector makes no difference.** What is parsed has the
type that was asked for and finite components. A list with one number or as many as the vector has
components gives the vector of these numbers, however it is spelled; a list of any other length is
refused. -/
theorem parse_spelled :
    (∀ type text v, parse type text = .ok v → type = .value v.type ∧ v.isFinite = true) ∧
    ∀ t : ValueType, 2 ≤ t.wordCount → ∀ l : Listing,
      (l.numbers.length = 1 ∨ l.numbers.length = t.wordCount →
        ∃ v : Value, v.type = t ∧ v.components = spread t.wordCount l.numbers ∧
          ∀ l' : Listing, l'.numbers = l.numbers → parse (.value t) l'.text = .ok v) ∧
      (¬ (l.numbers.length = 1 ∨ l.numbers.length = t.wordCount) →
        parse (.value t) l.text =
          .error (.componentCount t.wordCount l.numbers.length (Text.trimString l.text))) := by
  refine ⟨fun _ _ _ => parse_sound, fun t vector l => ?_⟩
  have components (l' : Listing) := readComponents_eq (readFloats_listing l') t.wordCount
  constructor
  · intro fits
    have reads (l' : Listing) (same : l'.numbers = l.numbers) :
        ∃ v, parse (.value t) l'.text = .ok v ∧ v.type = t ∧
          v.components = spread t.wordCount l.numbers := by
      rw [parse, trim_text]
      refine read_of_readComponents vector ?_ (length_spread fits)
      rw [components l', same, if_pos fits]
    obtain ⟨v, -, isType, spreads⟩ := reads l rfl
    refine ⟨v, isType, spreads, fun l' same => ?_⟩
    obtain ⟨v', is', isType', spreads'⟩ := reads l' same
    rw [is', eq_of_components (isType ▸ vector) (isType'.trans isType.symm)
      (spreads'.trans spreads.symm)]
  · intro other
    rw [parse, trim_text]
    refine read_of_readComponents_error vector ?_
    rw [components l, if_neg other, Text.trimString, trim_text]

theorem blank_of_all {cs : List Char} (all : cs.all Text.isBlank = true) :
    ∀ c ∈ cs, Text.isBlank c = true := List.all_eq_true.1 all

/-- A half, one below zero, and two. -/
def threeNumbers : List Component :=
  [⟨[' '], "0.5f".toList, [], ⟨0x3F000000⟩, ok_of_toOption (by decide +kernel), by simp,
      blank_of_all rfl, blank_of_all rfl⟩,
    ⟨[], "-1".toList, ['\t'], ⟨0xBF800000⟩, ok_of_toOption (by decide +kernel), by simp,
      blank_of_all rfl, blank_of_all rfl⟩,
    ⟨['\n'], " 2e0 ".toList, [], ⟨0x40000000⟩, ok_of_toOption (by decide +kernel), by simp,
      blank_of_all rfl, blank_of_all rfl⟩]

/-- A list in two spellings, which is a vector of three components and no vector of four. -/
theorem parse_spelled_three :
    let bare : Listing :=
      ⟨threeNumbers, .bare, [' '], [], blank_of_all rfl, blank_of_all rfl⟩
    let called : Listing := ⟨threeNumbers, .call "float3".toList (List.all_eq_true.1 rfl), [],
      ['\n'], blank_of_all rfl, blank_of_all rfl⟩
    bare.text = "  0.5f,-1\t,\n 2e0 " ∧ called.text = "float3( 0.5f,-1\t,\n 2e0 )\n" ∧
      (∃ v : Value, v.components = [⟨0x3F000000⟩, ⟨0xBF800000⟩, ⟨0x40000000⟩] ∧
        parse (.value .vector3) bare.text = .ok v ∧ parse (.value .vector3) called.text = .ok v) ∧
      parse (.value .vector4) called.text =
        .error (.componentCount 4 3 (Text.trimString called.text)) := by
  intro bare called
  obtain ⟨-, spelled⟩ := parse_spelled
  obtain ⟨v, -, components, all⟩ := (spelled .vector3 (by decide) bare).1 (.inr rfl)
  exact ⟨by decide +kernel, by decide +kernel, ⟨v, components, all bare rfl, all called rfl⟩,
    (spelled .vector4 (by decide) called).2 (by decide)⟩

end Value

end SurfaceShading
