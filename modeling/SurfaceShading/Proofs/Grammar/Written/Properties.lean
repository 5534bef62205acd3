/-
  Reading written properties: an attribute, a declaration, and the lines of a block.
-/
import SurfaceShading.Proofs.Grammar.Written
import Mathlib.Data.List.Nodup

namespace SurfaceShading.Grammar

variable {p : Property}

/-- Reading goes on behind an attribute. -/
theorem readAttributes_attribute {a : String × String} (key : isName a.1.toList = true)
    (is : AttributeText a.2.toList) (p : Property) (rest : List Char) :
    readAttributes p (writeAttribute a ++ rest) =
      withAttribute p a.1 a.2.toList >>= fun p => readAttributes p rest := by
  obtain ⟨key', text⟩ := a
  dsimp only at key is ⊢
  obtain ⟨c, cs, chars, start, run⟩ :=
    @isName_run ('(' :: (text.toList ++ ')' :: rest)) _ key (by rintro _ ⟨⟩; rfl)
  have written : writeAttribute (key', text) ++ rest =
      c :: (cs ++ '(' :: (text.toList ++ ')' :: rest)) := by
    simp [writeAttribute, chars]
  have left : (cs ++ '(' :: (text.toList ++ ')' :: rest)).drop
      ((cs ++ '(' :: (text.toList ++ ')' :: rest)).takeWhile isNameChar).length =
        '(' :: (text.toList ++ ')' :: rest) := by
    rw [run]
    exact List.drop_left' rfl
  have named : String.ofList (c :: cs) = key' := by rw [← chars, String.ofList_toList]
  rw [written, readAttributes_group start left, is.balanced.closing (by decide) rest, run, named]
  dsimp only
  rw [List.take_left' rfl, ← List.drop_drop, List.drop_left' rfl]
  rfl

/-- Blanks and commas between attributes are passed over. -/
theorem readAttributes_separator {c : Char} (sep : (Text.isAsciiBlank c || c == ',') = true)
    (p : Property) (rest : List Char) : readAttributes p (c :: rest) = readAttributes p rest := by
  rw [readAttributes, if_pos sep]

theorem readAttributes_listed {listed : List (String × String)}
    (keys : ∀ a ∈ listed, isName a.1.toList = true)
    (texts : ∀ a ∈ listed, AttributeText a.2.toList) (p : Property) :
    readAttributes p (Text.joinWith [',', ' '] (listed.map writeAttribute) ++ [' ']) =
      listed.foldlM (fun p a => withAttribute p a.1 a.2.toList) p := by
  have finished (p : Property) : readAttributes p [' '] = .ok p := by
    rw [readAttributes_separator rfl, readAttributes]
  induction listed generalizing p with
  | nil => exact finished p
  | cons a listed ih =>
    have next := readAttributes_attribute (keys a List.mem_cons_self) (texts a List.mem_cons_self) p
    rw [List.foldlM_cons]
    cases listed with
    | nil =>
      rw [List.map_singleton, Text.joinWith, next]
      exact congrArg _ (funext finished)
    | cons b listed =>
      have later := ih (fun a mem => keys a (List.mem_cons_of_mem _ mem))
        fun a mem => texts a (List.mem_cons_of_mem _ mem)
      rw [List.map_cons, Text.joinWith_cons _ _ (by simp), List.append_assoc, List.append_assoc,
        next]
      refine congrArg _ (funext fun p => ?_)
      rw [← later p]
      exact (readAttributes_separator rfl p _).trans (readAttributes_separator rfl p _)

theorem mem_attributes {a : String × String} (mem : a ∈ attributes p) :
    isName a.1.toList = true := by
  obtain ⟨b, listed, is⟩ := List.mem_filterMap.1 mem
  obtain ⟨_, _, rfl⟩ := Option.map_eq_some_iff.1 is
  have keys : ∀ b ∈ [("default", p.default), ("min", p.min), ("max", p.max), ("ui", p.ui)],
      isName b.1.toList = true := by
    simp only [List.forall_mem_cons]
    decide
  exact keys b listed

/-- A property is what its attributes make of one that has none. -/
theorem foldlM_attributes (writable : WritableProperty p) :
    (attributes p).foldlM (fun p a => withAttribute p a.1 a.2.toList) (.plain p.name p.type) =
      .ok p := by
  have kept (a : String × String) (mem : a ∈ attributes p) :
      String.ofList (Text.trim a.2.toList) = a.2 := by
    rw [(writable.attributes a mem).trimmed.trim, String.ofList_toList]
  obtain ⟨name, type, default, min, max, ui⟩ := p
  cases default <;> cases min <;> cases max <;> cases ui <;>
    simp_all [attributes, withAttribute, Property.plain, bind, Except.bind, pure, Except.pure]

/-- Attributes between braces, behind their head. -/
theorem splitAttributes_group {head : List Char} (noBrace : '\x7b' ∉ head) (inside : List Char) :
    splitAttributes (head ++ '\x7b' :: (inside ++ ['\x7d'])) = .ok (head, inside) := by
  have run := Text.takeWhile_ne_append noBrace (inside ++ ['\x7d'])
  have tail : (inside ++ ['\x7d']).reverse.takeWhile (· ≠ '\x7d') = [] := by
    rw [List.reverse_concat, List.takeWhile_cons_of_neg (by decide)]
  unfold splitAttributes
  dsimp only
  rw [run, List.drop_left' rfl]
  dsimp only
  rw [if_pos (by simp), tail]
  exact congrArg (fun cs => Except.ok (head, cs)) (List.take_left' (by simp))

/-- A head alone. -/
theorem splitAttributes_plain {line : List Char} (braces : NoBraces line)
    (trimmed : Text.Trimmed line) (noSemicolon : ';' ∉ line) :
    splitAttributes line = .ok (line, []) := by
  have run : line.takeWhile (· ≠ '\x7b') = line := by
    rw [List.takeWhile_eq_self_iff]
    intro c mem
    simp [ne_of_mem_of_not_mem mem braces.opener]
  have whole : line.reverse.dropWhile (· = ';') = line.reverse := by
    rw [List.dropWhile_eq_self_iff]
    intro nonempty is
    refine noSemicolon (List.mem_reverse.1 ?_)
    rw [← of_decide_eq_true is]
    exact List.getElem_mem nonempty
  unfold splitAttributes
  dsimp only
  rw [run, List.drop_length]
  dsimp only
  rw [if_neg (by simpa using braces.closer), trimmed.trimEnd, dropSemicolons, whole,
    List.reverse_reverse]

/-- The name of a type is a name, and it finds the type. -/
theorem typeName (type : PropertyType) :
    isName type.name.toList = true ∧ PropertyType.ofName? type.name = some type := by
  rcases type with (_ | _ | _ | _ | _ | _) | (_ | _) <;> decide

/-- What stands before the attributes of a property. -/
def headOf (p : Property) : List Char := p.type.name.toList ++ [' '] ++ p.name.toList

theorem headOf_solid (name : isName p.name.toList = true) :
    NoBraces (headOf p) ∧ Text.Trimmed (headOf p) ∧ '\n' ∉ headOf p ∧ ';' ∉ headOf p := by
  obtain ⟨word, braces, feed, semicolon⟩ := isName_solid (typeName p.type).1
  obtain ⟨word', braces', feed', semicolon'⟩ := isName_solid name
  refine ⟨⟨?_, ?_⟩, word.trimmed.around word.1 word'.trimmed word'.1 _, ?_, ?_⟩
  · simp [headOf, braces.opener, braces'.opener]
  · simp [headOf, braces.closer, braces'.closer]
  · simp [headOf, feed, feed']
  · simp [headOf, semicolon, semicolon']

theorem words_headOf (name : isName p.name.toList = true) {blanks : List Char}
    (blank : ∀ c ∈ blanks, Text.isBlank c = true) :
    Text.words (headOf p ++ blanks) = [p.type.name.toList, p.name.toList] := by
  have none : Text.words blanks = [] := by
    induction blanks with
    | nil => rfl
    | cons c blanks ih =>
      rw [Text.words_blank (blank c List.mem_cons_self)]
      exact ih fun d mem => blank d (List.mem_cons_of_mem c mem)
  have stop (c : Char) (mem : c ∈ blanks.head?) := blank c (List.mem_of_mem_head? mem)
  rw [headOf, List.append_assoc, List.append_assoc,
    Text.words_word (isName_solid (typeName p.type).1).1 (by rintro _ ⟨⟩; rfl),
    List.singleton_append, Text.words_blank rfl, Text.words_word (isName_solid name).1 stop, none]

theorem readDeclaration_head {line attributes : List Char} (name : isName p.name.toList = true)
    (blanks : List Char) (blank : ∀ c ∈ blanks, Text.isBlank c = true)
    (split : splitAttributes line = .ok (headOf p ++ blanks, attributes)) :
    readDeclaration line = readAttributes (.plain p.name p.type) attributes := by
  unfold readDeclaration
  rw [split]
  simp only [bind, Except.bind]
  rw [words_headOf name blank]
  dsimp only
  rw [String.ofList_toList, (typeName p.type).2]
  dsimp only
  rw [if_pos name, String.ofList_toList]

/-- A declaration is its head, or its head and a group of attributes. -/
theorem writeDeclaration_eq (p : Property) :
    (attributes p = [] ∧ writeDeclaration p = headOf p) ∨
    (attributes p ≠ [] ∧ writeDeclaration p = (headOf p ++ [' ']) ++ '\x7b' ::
      (' ' :: (Text.joinWith [',', ' '] ((attributes p).map writeAttribute) ++ [' ']) ++ ['\x7d'])) := by
  cases listed : attributes p with
  | nil => exact .inl ⟨rfl, by simp [writeDeclaration, listed, writeAttributes, headOf]⟩
  | cons a rest => exact .inr ⟨by simp, by simp [writeDeclaration, listed, writeAttributes, headOf]⟩

theorem trimmed_declaration (writable : WritableProperty p) :
    Text.Trimmed (writeDeclaration p) := by
  obtain ⟨word, -⟩ := isName_solid (typeName p.type).1
  rcases writeDeclaration_eq p with ⟨-, is⟩ | ⟨-, is⟩
  · rw [is]
    exact (headOf_solid writable.name).2.1
  · have around := word.trimmed.around word.1 (by decide : Text.Trimmed ['\x7d']) (by simp)
    rw [is]
    simpa [headOf] using around (' ' :: (p.name.toList ++ ' ' :: '\x7b' :: ' ' ::
      (Text.joinWith [',', ' '] ((attributes p).map writeAttribute) ++ [' '])))

/-- What is behind the mark of a written property reads as the property. -/
theorem readDeclaration_written (writable : WritableProperty p) :
    readDeclaration (writeDeclaration p) = .ok p := by
  have made := foldlM_attributes writable
  obtain ⟨braces, trimmed, -, semicolon⟩ := headOf_solid writable.name
  rcases writeDeclaration_eq p with ⟨listed, is⟩ | ⟨-, is⟩
  · rw [is, readDeclaration_head writable.name [] (by simp) (by
      rw [List.append_nil]
      exact splitAttributes_plain braces trimmed semicolon), readAttributes, ← made, listed]
    rfl
  · rw [is, readDeclaration_head writable.name [' '] (List.forall_mem_singleton.2 rfl)
      (splitAttributes_group (by simpa using braces.opener) _),
      readAttributes_separator rfl, readAttributes_listed, made]
    · exact fun a mem => mem_attributes mem
    · exact writable.attributes

theorem declaration?_written (writable : WritableProperty p) :
    declaration? (writeProperty p) = some (.ok p) := by
  have trimmed := trimmed_declaration writable
  have nonempty : writeDeclaration p ≠ [] := by
    simp [writeDeclaration]
  have around := (by decide : Text.Trimmed propertyMark).around (by decide) trimmed nonempty [' ']
  rw [List.append_assoc] at around
  rw [declaration?, writeProperty, ← List.singleton_append, around.trim, Text.after?_append,
    List.singleton_append, Option.map_some, Text.trim_blank_cons rfl, trimmed.trim,
    readDeclaration_written writable]

/-- A mark of a block or the end of a line is not among the attributes of a property. -/
theorem not_mem_attributes (writable : WritableProperty p) {c : Char}
    (mark : c ∈ ['\x7b', '\x7d', '\n']) :
    c ∉ Text.joinWith [',', ' '] ((attributes p).map writeAttribute) := by
  simp only [List.mem_cons, List.not_mem_nil, or_false] at mark
  intro mem
  rcases Text.mem_joinWith mem with sep | ⟨_, listed, mem⟩
  · rcases mark with rfl | rfl | rfl <;> simp at sep
  · obtain ⟨a, of, rfl⟩ := List.mem_map.1 listed
    have key := isName_solid (mem_attributes of)
    have text := writable.attributes a of
    rcases mark with rfl | rfl | rfl
    · simp [writeAttribute, key.2.1.opener, text.braces.opener] at mem
    · simp [writeAttribute, key.2.1.closer, text.braces.closer] at mem
    · simp [writeAttribute, key.2.2.1, text.line] at mem

/-- A property takes one line, on which braces are closed. -/
theorem writeProperty_line (writable : WritableProperty p) :
    '\n' ∉ writeProperty p ∧ Balanced '\x7b' '\x7d' (writeProperty p) := by
  obtain ⟨braces, -, feed, -⟩ := headOf_solid writable.name
  have listed (c : Char) (mark : c ∈ ['\x7b', '\x7d', '\n']) := not_mem_attributes writable mark
  have mark : Balanced '\x7b' '\x7d' (propertyMark ++ [' ']) := .of_not_mem (by decide) (by decide)
  rcases writeDeclaration_eq p with ⟨-, is⟩ | ⟨-, is⟩
  · rw [writeProperty, is]
    refine ⟨by simpa [propertyMark] using feed, ?_⟩
    simpa using mark.append (.of_not_mem braces.opener braces.closer)
  · have inside : Balanced '\x7b' '\x7d'
        (' ' :: (Text.joinWith [',', ' '] ((attributes p).map writeAttribute) ++ [' '])) :=
      .of_not_mem (by simpa using listed '\x7b' (by simp)) (by simpa using listed '\x7d' (by simp))
    have head : Balanced '\x7b' '\x7d' (headOf p ++ [' ']) :=
      .of_not_mem (by simpa using braces.opener) (by simpa using braces.closer)
    rw [writeProperty, is]
    refine ⟨?_, ?_⟩
    · simpa [propertyMark, feed] using listed '\n' (by simp)
    · simpa using (mark.append head).append (inside.group (by decide))

/-- The lines of a block of properties declare them. -/
theorem readDeclarations_written {properties : List Property}
    (writable : ∀ p ∈ properties, WritableProperty p) {seen : List Property}
    (distinct : ((seen ++ properties).map Property.name).Nodup) (start : Nat) :
    readDeclarations seen
      (Span.lines.placed start (Text.splitAtChar '\n' (writeProperties properties))) =
        .ok (seen ++ properties) := by
  induction properties generalizing seen start with
  | nil =>
    rw [List.append_nil]
    rfl
  | cons p properties ih =>
    have here := writable p List.mem_cons_self
    have fresh : ¬ (seen.any fun q => q.name == p.name) = true := by
      rw [List.map_append, List.map_cons] at distinct
      have unlike := (List.nodup_cons.1 (List.nodup_middle.1 distinct)).1
      simp only [List.any_eq_true, beq_iff_eq, not_exists, not_and]
      intro q mem same
      exact unlike (List.mem_append_left _ (List.mem_map.2 ⟨q, mem, same⟩))
    have line : writeProperties (p :: properties) =
        writeProperty p ++ '\n' :: writeProperties properties := by
      simp [writeProperties]
    rw [line, Text.splitAtChar_line (writeProperty_line here).1, Span.lines.placed,
      readDeclarations]
    dsimp only
    rw [declaration?_written here]
    dsimp only
    rw [if_neg fresh, ih (fun q mem => writable q (List.mem_cons_of_mem p mem)) (by simpa using distinct),
      List.append_assoc, List.singleton_append]

end SurfaceShading.Grammar
