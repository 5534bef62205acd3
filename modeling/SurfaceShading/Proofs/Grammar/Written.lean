/-
  Shader texts as they are documented, written from a definition: each declaration on a line of
  its own, blocks between braces, and of a property the attributes that it has.
-/
import SurfaceShading.Proofs.Grammar.Pieces
import SurfaceShading.Proofs.Text.Cuts
import SurfaceShading.Shader.Grammar.Reader

namespace SurfaceShading.Grammar

/-! ## The written form -/

/-- A keyword and a quoted name on a line. -/
def writeNamed (keyword : String) (name : List Char) : List Char :=
  keyword.toList ++ ' ' :: '"' :: (name ++ '"' :: ['\n'])

def writeQueue (queue : RenderQueue) : List Char := writeNamed "RenderQueue" queue.name.toList

/-- A keyword and the block behind it. -/
def writeBlock (keyword : String) (body : List Char) : List Char :=
  keyword.toList ++ [' '] ++ '\x7b' :: ('\n' :: body ++ '\x7d' :: ['\n'])

/-- The attributes that a property has, with their keys. -/
def attributes (p : Property) : List (String × String) :=
  [("default", p.default), ("min", p.min), ("max", p.max), ("ui", p.ui)].filterMap
    fun a => a.2.map (a.1, ·)

def writeAttribute (a : String × String) : List Char := a.1.toList ++ '(' :: (a.2.toList ++ [')'])

/-- Attributes with commas between them, inside braces. -/
def writeAttributes : List (String × String) → List Char
  | [] => []
  | listed =>
    [' ', '\x7b', ' '] ++ Text.joinWith [',', ' '] (listed.map writeAttribute) ++ [' ', '\x7d']

def writeDeclaration (p : Property) : List Char :=
  p.type.name.toList ++ ' ' :: (p.name.toList ++ writeAttributes (attributes p))

/-- The line of a property. -/
def writeProperty (p : Property) : List Char := propertyMark ++ ' ' :: writeDeclaration p

def writeProperties (properties : List Property) : List Char :=
  properties.flatMap fun p => writeProperty p ++ ['\n']

/-- A key and its text, with a semicolon behind it, on a line. -/
def writeAssignment (key : String) (text : List Char) : List Char :=
  key.toList ++ ' ' :: '=' :: ' ' :: (text ++ ';' :: ['\n'])

def writeModel (m : ShadingModel) : List Char :=
  writeAssignment "shadingmodel" (Nat.toDigits 10 m.id.toNat) ++
    writeAssignment "BRDF" m.call.toList ++ writeBlock "BRDF" (m.body.toList ++ ['\n'])

/-- The line that names the entry point of a stage. -/
def writePragma (stage : Stage) (entry : List Char) : List Char :=
  pragmaMark ++ ' ' :: ((ParseCause.pragmaName stage).toList ++ ' ' :: entry)

def writePass (p : Pass) : List Char :=
  writeNamed "Name" p.name.toList ++ writeQueue p.queue ++ programStart ++
    '\n' :: (writePragma .vertex p.vertex.toList ++
      '\n' :: (writePragma .fragment p.fragment.toList ++
        '\n' :: (p.body.toList ++ '\n' :: (programEnd ++ ['\n']))))

/-- The declarations of a definition. -/
def writeBody (d : Definition) : List Char :=
  writeQueue d.queue ++ writeBlock "Properties" (writeProperties d.properties) ++
    d.model.toList.flatMap (fun m => writeBlock "ShadingModel" (writeModel m)) ++
    d.passes.flatMap fun p => writeBlock "Pass" (writePass p)

/-- The text of a definition. -/
def write (d : Definition) : List Char :=
  "Shader".toList ++ ' ' :: '"' :: (d.name.toList ++ '"' ::
    ([' '] ++ '\x7b' :: ('\n' :: writeBody d ++ '\x7d' :: ['\n'])))

/-! A piece that is written on its own line has its text behind one line feed and leaves another. -/

theorem writeNamed_append (keyword : String) (name rest : List Char) :
    writeNamed keyword name ++ rest =
      keyword.toList ++ ' ' :: '"' :: (name ++ '"' :: '\n' :: rest) := by
  simp [writeNamed]

theorem writeBlock_append (keyword : String) (body rest : List Char) :
    writeBlock keyword body ++ rest =
      keyword.toList ++ ' ' :: '\x7b' :: ('\n' :: body ++ '\x7d' :: '\n' :: rest) := by
  simp [writeBlock]

theorem writeAssignment_append (key : String) (text rest : List Char) :
    writeAssignment key text ++ rest =
      key.toList ++ ' ' :: '=' :: (' ' :: text ++ ';' :: '\n' :: rest) := by
  simp [writeAssignment]

/-! ## Definitions that can be written -/

/-- A text without braces. -/
structure NoBraces (cs : List Char) : Prop where
  opener : '\x7b' ∉ cs
  closer : '\x7d' ∉ cs

/-- What an attribute may hold: a trimmed text on one line, without braces and with its
parentheses closed. -/
structure AttributeText (text : List Char) : Prop where
  trimmed : Text.Trimmed text
  line : '\n' ∉ text
  braces : NoBraces text
  balanced : Balanced '(' ')' text

structure WritableProperty (p : Property) : Prop where
  name : isName p.name.toList = true
  attributes : ∀ a ∈ attributes p, AttributeText a.2.toList

structure WritableModel (m : ShadingModel) : Prop where
  trimmed : Text.Trimmed m.call.toList
  nonempty : m.call.toList ≠ []
  semicolon : ';' ∉ m.call.toList
  braces : NoBraces m.call.toList
  body : Text.CodeBlock m.body.toList
  balanced : Balanced '\x7b' '\x7d' m.body.toList

/-- A name of an entry point: a word without braces in which the program does not end. -/
structure EntryPoint (name : List Char) : Prop where
  word : Text.Word name
  braces : NoBraces name
  inside : ¬ programEnd <:+: name

/-- A line that is a pragma for the entry point of a stage. -/
def IsEntryPragma (line : List Char) : Prop :=
  ∃ rest stage, Text.trim line = pragmaMark ++ rest ∧
    (Text.words rest).head? = some (ParseCause.pragmaName stage).toList

/-- Code of a pass: its braces are closed, the program does not end in it, and no line of it
names an entry point. -/
structure PassCode (code : List Char) : Prop where
  block : Text.CodeBlock code
  balanced : Balanced '\x7b' '\x7d' code
  inside : ¬ programEnd <:+: code
  pragmas : ∀ line ∈ Text.splitAtChar '\n' code, ¬ IsEntryPragma line

/-- A name that can be quoted. -/
structure Quotable (name : List Char) : Prop where
  quote : '"' ∉ name
  feed : '\n' ∉ name

structure WritablePass (p : Pass) : Prop where
  name : Quotable p.name.toList
  braces : NoBraces p.name.toList
  start : ¬ programStart <:+: p.name.toList
  vertex : EntryPoint p.vertex.toList
  fragment : EntryPoint p.fragment.toList
  body : PassCode p.body.toList

/-- A definition whose parts can be told apart in its text. -/
structure Writable (d : Definition) : Prop where
  name : Quotable d.name.toList
  named : ∃ c ∈ d.name.toList, Text.isBlank c = false
  properties : ∀ p ∈ d.properties, WritableProperty p
  distinct : (d.properties.map Property.name).Nodup
  model : ∀ m ∈ d.model, WritableModel m
  nonempty : d.passes ≠ []
  passes : ∀ p ∈ d.passes, WritablePass p

/-! Each of these conditions can be tested. -/

instance (cs : List Char) : Decidable (NoBraces cs) :=
  decidable_of_iff (_ ∧ _) ⟨fun h => ⟨h.1, h.2⟩, fun h => ⟨h.opener, h.closer⟩⟩

instance (text : List Char) : Decidable (AttributeText text) :=
  decidable_of_iff (_ ∧ _ ∧ _ ∧ _) ⟨fun h => ⟨h.1, h.2.1, h.2.2.1, h.2.2.2⟩,
    fun h => ⟨h.trimmed, h.line, h.braces, h.balanced⟩⟩

instance (p : Property) : Decidable (WritableProperty p) :=
  decidable_of_iff (_ ∧ _) ⟨fun h => ⟨h.1, h.2⟩, fun h => ⟨h.name, h.attributes⟩⟩

instance (m : ShadingModel) : Decidable (WritableModel m) :=
  decidable_of_iff (_ ∧ _ ∧ _ ∧ _ ∧ _ ∧ _)
    ⟨fun h => ⟨h.1, h.2.1, h.2.2.1, h.2.2.2.1, h.2.2.2.2.1, h.2.2.2.2.2⟩,
      fun h => ⟨h.trimmed, h.nonempty, h.semicolon, h.braces, h.body, h.balanced⟩⟩

instance (name : List Char) : Decidable (EntryPoint name) :=
  decidable_of_iff (_ ∧ _ ∧ _) ⟨fun h => ⟨h.1, h.2.1, h.2.2⟩,
    fun h => ⟨h.word, h.braces, h.inside⟩⟩

instance (line : List Char) : Decidable (IsEntryPragma line) :=
  decidable_of_iff (pragmaMark <+: Text.trim line ∧ ∃ stage ∈ [Stage.vertex, .fragment],
      (Text.words ((Text.trim line).drop pragmaMark.length)).head? =
        some (ParseCause.pragmaName stage).toList)
    (by
      constructor
      · rintro ⟨⟨rest, is⟩, stage, -, named⟩
        rw [← is, List.drop_left' rfl] at named
        exact ⟨rest, stage, is.symm, named⟩
      · rintro ⟨rest, stage, is, named⟩
        rw [is, List.drop_left' rfl]
        exact ⟨List.prefix_append _ _, stage, by cases stage <;> decide, named⟩)

instance (code : List Char) : Decidable (PassCode code) :=
  decidable_of_iff (_ ∧ _ ∧ _ ∧ _) ⟨fun h => ⟨h.1, h.2.1, h.2.2.1, h.2.2.2⟩,
    fun h => ⟨h.block, h.balanced, h.inside, h.pragmas⟩⟩

instance (name : List Char) : Decidable (Quotable name) :=
  decidable_of_iff (_ ∧ _) ⟨fun h => ⟨h.1, h.2⟩, fun h => ⟨h.quote, h.feed⟩⟩

instance (p : Pass) : Decidable (WritablePass p) :=
  decidable_of_iff (_ ∧ _ ∧ _ ∧ _ ∧ _ ∧ _)
    ⟨fun h => ⟨h.1, h.2.1, h.2.2.1, h.2.2.2.1, h.2.2.2.2.1, h.2.2.2.2.2⟩,
      fun h => ⟨h.name, h.braces, h.start, h.vertex, h.fragment, h.body⟩⟩

instance (d : Definition) : Decidable (Writable d) :=
  decidable_of_iff (_ ∧ d.name.toList.any (!Text.isBlank ·) = true ∧ _ ∧ _ ∧ _ ∧ _ ∧ _)
    ⟨fun h => ⟨h.1, by simpa using h.2.1, h.2.2.1, h.2.2.2.1, h.2.2.2.2.1, h.2.2.2.2.2.1,
        h.2.2.2.2.2.2⟩,
      fun h => ⟨h.name, by simpa using h.named, h.properties, h.distinct, h.model, h.nonempty,
        h.passes⟩⟩

/-! ## Names -/

/-- No character of a name is blank or a mark. -/
theorem isNameChar_solid {c : Char} (is : isNameChar c = true) :
    Text.isBlank c = false ∧ c ≠ '\x7b' ∧ c ≠ '\x7d' ∧ c ≠ ';' ∧ c ≠ '\n' := by
  have range := toNat_of_isNameChar is
  refine ⟨?_, ?_, ?_, ?_, ?_⟩
  · simp only [Text.isBlank, Bool.or_eq_false_iff, Bool.and_eq_false_iff, decide_eq_false_iff_not,
      beq_eq_false_iff_ne]
    omega
  all_goals
    rintro rfl
    revert range
    decide

theorem isName_solid {name : List Char} (is : isName name = true) :
    Text.Word name ∧ NoBraces name ∧ '\n' ∉ name ∧ ';' ∉ name := by
  have all : ∀ c ∈ name, isNameChar c = true := by
    cases name with
    | nil => cases is
    | cons c cs =>
      obtain ⟨start, rest⟩ : isNameStart c = true ∧ ∀ d ∈ cs, isNameChar d = true := by
        simpa [isName] using is
      exact List.forall_mem_cons.2 ⟨isNameChar_of_start start, rest⟩
  refine ⟨⟨?_, fun c mem => (isNameChar_solid (all c mem)).1⟩, ⟨?_, ?_⟩, ?_, ?_⟩
  · rintro rfl
    cases is
  all_goals
    intro mem
    simpa using isNameChar_solid (all _ mem)

/-! ## Lines and blocks at hand -/

section

variable {s : Span} {keyword : String} {rest : List Char}

/-- A keyword with a quoted name on a line of its own. -/
theorem next_named (is : isName keyword.toList = true) {name : List Char} (quotable : Quotable name)
    (text : s.chars = '\n' :: (writeNamed keyword name ++ rest)) :
    ∃ position, ∃ behind : Shorter s.size, ∃ after : Shorter behind.val.size,
      s.next = .name position keyword behind ∧ behind.val.quoted = .ok (name, after) ∧
        after.val.chars = '\n' :: rest := by
  rw [writeNamed_append] at text
  obtain ⟨position, behind, next, chars⟩ := @next_name s _ keyword is
    (by rw [text, afterTrivia_blank rfl, afterTrivia_name is]) (by rintro _ ⟨⟩; rfl)
  obtain ⟨after, quoted, chars'⟩ := @quoted_ok behind _ name quotable.quote quotable.feed
    (by rw [chars, afterTrivia_blank rfl, afterTrivia_solid rfl (by decide)])
  exact ⟨position, behind, after, next, quoted, chars'⟩

/-- A keyword with a block on lines of its own. -/
theorem next_block (is : isName keyword.toList = true) {body : List Char}
    (balanced : Balanced '\x7b' '\x7d' body)
    (text : s.chars = '\n' :: (writeBlock keyword body ++ rest)) :
    ∃ position, ∃ behind : Shorter s.size, ∃ block : Block behind.val.size,
      s.next = .name position keyword behind ∧ behind.val.block = .ok block ∧
        block.body.val.chars = '\n' :: body ∧ block.after.val.chars = '\n' :: rest := by
  have feed : Balanced '\x7b' '\x7d' ['\n'] := .of_not_mem (by decide) (by decide)
  rw [writeBlock_append] at text
  obtain ⟨position, behind, next, chars⟩ := @next_name s _ keyword is
    (by rw [text, afterTrivia_blank rfl, afterTrivia_name is]) (by rintro _ ⟨⟩; rfl)
  obtain ⟨block, cut, inside, after⟩ := @block_ok behind _ [' '] ('\n' :: body) (by decide)
    (feed.append balanced) chars
  exact ⟨position, behind, block, next, cut, inside, after⟩

/-- A piece of a written text ends with a line feed, and nothing else is left. -/
theorem next_finished (text : s.chars = ['\n']) : s.next = .finished := by
  have nothing : s.skipTrivia.chars = [] := by
    rw [chars_skipTrivia, text, afterTrivia_blank rfl, afterTrivia_nil]
  unfold Span.next
  dsimp only
  split
  · rfl
  · next some =>
    rw [nothing] at some
    cases some

/-- The queue that a quoted name gives. -/
theorem readQueue_ok {queue : RenderQueue} {position : Nat} {after : Shorter s.size}
    (quoted : s.quoted = .ok (queue.name.toList, after)) :
    readQueue position s = .ok (queue, after) := by
  rw [readQueue, quoted]
  cases queue <;> rfl

theorem quotable_queue (queue : RenderQueue) : Quotable queue.name.toList := by
  cases queue <;> exact ⟨by decide, by decide⟩

end

end SurfaceShading.Grammar
