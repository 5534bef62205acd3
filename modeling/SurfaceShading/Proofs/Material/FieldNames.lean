/-
  The names that the declaration of the material constants gives to its fields. A value has the
  name of its property and a texture that name with `_Index` behind it, so a field may be
  declared twice although the properties have different names: exactly if a value is named like
  the index of a texture (`Source.fields_unique_iff`). Names are taken from the text that is
  generated: those that its lines declare, and those that the macros of the textures use.
-/
import SurfaceShading.Proofs.Grammar.PropertyNames
import SurfaceShading.Proofs.Grammar.Written
import SurfaceShading.Proofs.Material.ConstantFields
import SurfaceShading.Proofs.Number.Digits
import SurfaceShading.Proofs.Text.Cuts

namespace SurfaceShading

namespace Grammar

/-! ## Property names are names -/

theorem withAttribute_name {p q : Property} {key : String} {value : List Char}
    (is : withAttribute p key value = .ok q) : q.name = p.name := by
  unfold withAttribute at is
  dsimp only at is
  split at is <;> cases is <;> rfl

theorem readAttributes_name {p q : Property} {cs : List Char}
    (read : readAttributes p cs = .ok q) : q.name = p.name := by
  fun_induction readAttributes p cs with
  | case1 => cases read; rfl
  | case2 _ _ _ _ ih => exact ih read
  | case3 p c rest _ _ key inside left n closed ih =>
    obtain ⟨p', given, read⟩ := except_bind_eq_ok.1 read
    rw [ih p' read, withAttribute_name given]
  | _ => cases read

theorem isName_of_readDeclaration {line : List Char} {p : Property}
    (read : readDeclaration line = .ok p) : isName p.name.toList = true := by
  obtain ⟨⟨head, attributes⟩, -, read⟩ := except_bind_eq_ok.1 read
  dsimp only at read
  split at read
  · cases read
  · split at read
    · cases read
    · cases read
    · split at read
      · next is =>
        rw [readAttributes_name read, Property.plain, String.toList_ofList]
        exact is
      · cases read
    · cases read

theorem isName_of_declared {block : Span} {p : Property} (mem : p ∈ block.declared) :
    isName p.name.toList = true := by
  obtain ⟨line, -, is⟩ := List.mem_filterMap.1 mem
  obtain ⟨result, declared, ok⟩ := Option.bind_eq_some_iff.1 is
  obtain ⟨rest, -, rfl⟩ := Option.map_eq_some_iff.1 declared
  exact isName_of_readDeclaration (ok_of_toOption ok)

/-- The properties of a text have names. -/
theorem isName_of_parsed {text : String} {d : Definition} (parsed : Definition.parse text = .ok d)
    {p : Property} (mem : p ∈ d.properties) : isName p.name.toList = true := by
  obtain ⟨name, rest, block, draft, -, -, body, rfl⟩ := read_eq_ok parsed
  have mem : p ∈ draft.properties := mem
  rw [(readBody_properties body).1, Draft.empty, List.nil_append] at mem
  obtain ⟨inside, -, declared⟩ := List.mem_flatMap.1 mem
  exact isName_of_declared declared

end Grammar

namespace Source

/-! ## The names in a text -/

/-- The field that a line declares at a place of the constants. -/
def fieldName? (line : List Char) : Option String :=
  match Text.words line with
  | [_, name, [':'], place] =>
    if "packoffset(".toList.isPrefixOf place then some (String.ofList name) else none
  | _ => none

/-- The fields that a text declares, line by line. -/
def fieldNames (text : String) : List String :=
  (Text.splitAtChar '\n' text.toList).filterMap fieldName?

/-- The field that the macros of a texture take its index from: the argument in their second
line. -/
def indexName? (macros : String) : Option String :=
  match Text.splitAtChar '\n' macros.toList with
  | _ :: line :: _ =>
    match Text.splitAtChar '(' line with
    | [_, argument] => some (String.ofList (argument.takeWhile (· ≠ ')')))
    | _ => none
  | _ => none

/-- A parameter whose property has a name that the grammar admits. -/
def Named (q : Parameter) : Prop := Grammar.isName q.name.toList = true

variable {q : Parameter}

theorem isName_append {name more : List Char} (is : Grammar.isName name = true)
    (all : more.all Grammar.isNameChar = true) : Grammar.isName (name ++ more) = true := by
  cases name with
  | nil => cases is
  | cons c cs =>
    obtain ⟨start, rest⟩ := Bool.and_eq_true_iff.1 is
    show (Grammar.isNameStart c && (cs ++ more).all Grammar.isNameChar) = true
    rw [List.all_append, start, rest, all]
    rfl

theorem Named.fieldName (named : Named q) : Grammar.isName q.fieldName.toList = true := by
  unfold Parameter.fieldName
  split
  · rw [String.toList_append]
    exact isName_append named (by decide)
  · exact named

/-- A character that no name has. -/
theorem not_mem_of_isName {c : Char} {name : List Char} (other : Grammar.isNameChar c = false)
    (is : Grammar.isName name = true) : c ∉ name := by
  intro mem
  cases name with
  | nil => cases mem
  | cons d cs =>
    obtain ⟨start, rest⟩ := Bool.and_eq_true_iff.1 is
    have all : (d :: cs).all Grammar.isNameChar = true := by
      rw [List.all_cons, Grammar.isNameChar_of_start start, rest]
      rfl
    rw [List.all_eq_true.1 all c mem] at other
    cases other

theorem Named.not_mem (named : Named q) {c : Char} (other : Grammar.isNameChar c = false) :
    c ∉ q.name.toList := not_mem_of_isName other named

/-- The place of a field as its declaration writes it. -/
def placeText (q : Parameter) : List Char :=
  "packoffset(c".toList ++ Nat.toDigits 10 (q.offset / registerSize).toNat ++
    '.' :: (componentName q.offset.toNat).toList ++ [')', ';']

/-- The declaration of a field without the line feed at its end. -/
def fieldLine (q : Parameter) : List Char :=
  "    ".toList ++ (q.type.nativeName.toList ++ ' ' :: (q.fieldName.toList ++
    " : ".toList ++ placeText q))

theorem toList_text_ofParameter (q : Parameter) :
    (FieldDeclaration.ofParameter q).text.toList = fieldLine q ++ ['\n'] := by
  unfold FieldDeclaration.text FieldDeclaration.ofParameter fieldLine placeText
  simp [toString]

theorem word_nativeName (t : PropertyType) : Text.Word t.nativeName.toList := by
  cases t with
  | value t => cases t <;> decide
  | texture d => exact (by decide : Text.Word "uint".toList)

theorem word_placeText (q : Parameter) : Text.Word (placeText q) := by
  have component : Text.Word (componentName q.offset.toNat).toList := by
    unfold componentName
    split <;> decide
  have digits (c : Char) (mem : c ∈ Nat.toDigits 10 (q.offset / registerSize).toNat) :
      Text.isBlank c = false :=
    (Grammar.isNameChar_solid (by
      rw [Grammar.isNameChar, isDigit_of_mem_toDigits mem, Bool.or_true, Bool.true_or])).1
  have start : Text.Word "packoffset(c".toList := by decide
  have mark : Text.Word ['.', ')', ';'] := by decide
  refine ⟨List.append_ne_nil_of_right_ne_nil _ (List.cons_ne_nil _ _), fun c mem => ?_⟩
  rcases List.mem_append.1 mem with mem | mem
  · rcases List.mem_append.1 mem with mem | mem
    · exact (List.mem_append.1 mem).elim (start.2 c) (digits c)
    · rcases List.mem_cons.1 mem with rfl | mem
      · exact mark.2 _ (by simp)
      · exact component.2 c mem
  · exact mark.2 c (List.mem_cons_of_mem _ mem)

theorem words_fieldLine (named : Named q) : Text.words (fieldLine q) =
    [q.type.nativeName.toList, q.fieldName.toList, [':'], placeText q] := by
  have name := (Grammar.isName_solid named.fieldName).1
  have last : Text.words (placeText q) = [placeText q] := by
    have alone := @Text.words_word _ (word_placeText q) [] (by simp)
    rwa [List.append_nil] at alone
  have colon : Text.words (" : ".toList ++ placeText q) = [':'] :: Text.words (placeText q) := by
    have word := @Text.words_word [':'] (by decide) (' ' :: placeText q) (by rintro _ ⟨⟩; rfl)
    rw [Text.words_blank rfl] at word
    exact (Text.words_blank rfl _).trans word
  have indent (rest : List Char) : Text.words ("    ".toList ++ rest) = Text.words rest :=
    (Text.words_blank rfl _).trans ((Text.words_blank rfl _).trans
      ((Text.words_blank rfl _).trans (Text.words_blank rfl _)))
  rw [fieldLine, indent, Text.words_word (word_nativeName q.type) (by rintro _ ⟨⟩; rfl),
    Text.words_blank rfl, List.append_assoc, Text.words_word name (by rintro _ ⟨⟩; rfl), colon,
    last]

theorem fieldName?_fieldLine (named : Named q) : fieldName? (fieldLine q) = some q.fieldName := by
  have place : "packoffset(".toList.isPrefixOf (placeText q) = true := rfl
  rw [fieldName?, words_fieldLine named]
  refine (if_pos place).trans ?_
  rw [String.ofList_toList]

/-- Lines that are written one after the other are found one after the other. -/
theorem splitAtChar_lines {lines : List (List Char)} (whole : ∀ line ∈ lines, '\n' ∉ line)
    (rest : List Char) :
    Text.splitAtChar '\n' (lines.flatMap (· ++ ['\n']) ++ rest) =
      lines ++ Text.splitAtChar '\n' rest := by
  induction lines with
  | nil => rfl
  | cons line lines ih =>
    obtain ⟨here, later⟩ := List.forall_mem_cons.1 whole
    rw [List.flatMap_cons, List.append_assoc, List.append_assoc, List.singleton_append,
      Text.splitAtChar_line here, ih later, List.cons_append]

theorem feed_not_mem_of_word {word : List Char} (is : Text.Word word) : '\n' ∉ word :=
  fun mem => absurd (is.2 _ mem) (by decide)

theorem feed_not_mem_fieldLine (named : Named q) : '\n' ∉ fieldLine q := by
  have indent : '\n' ∉ "    ".toList := by decide
  have colon : '\n' ∉ " : ".toList := by decide
  have type := feed_not_mem_of_word (word_nativeName q.type)
  have place := feed_not_mem_of_word (word_placeText q)
  have name := feed_not_mem_of_word (Grammar.isName_solid named.fieldName).1
  intro mem
  rcases List.mem_append.1 mem with mem | mem
  · exact indent mem
  · rcases List.mem_append.1 mem with mem | mem
    · exact type mem
    · rcases List.mem_cons.1 mem with same | mem
      · cases same
      · rcases List.mem_append.1 mem with mem | mem
        · exact (List.mem_append.1 mem).elim name colon
        · exact place mem

/-- The text of the constants declares the fields of the parameters, in order. -/
theorem fieldNames_materialConstants {parameters : List Parameter}
    (named : ∀ q ∈ parameters, Named q) :
    fieldNames (materialConstants parameters) = parameters.map Parameter.fieldName := by
  have lines : (String.join (parameters.map fun q => (FieldDeclaration.ofParameter q).text)).toList
      = (parameters.map fieldLine).flatMap (· ++ ['\n']) := by
    rw [String.toList_join, List.flatMap_map, List.flatMap_map]
    exact List.flatMap_congr fun q _ => toList_text_ofParameter q
  unfold materialConstants
  split
  · next empty =>
    rw [List.isEmpty_iff.1 empty]
    decide
  · have text : (s!"cbuffer MaterialConstants : register(b{materialRegister})\n" ++ "\x7b\n" ++
        String.join (parameters.map fun q => (FieldDeclaration.ofParameter q).text) ++
          "\x7d;\n").toList =
        ["cbuffer MaterialConstants : register(b1)".toList, ['\x7b']].flatMap (· ++ ['\n']) ++
          ((parameters.map fieldLine).flatMap (· ++ ['\n']) ++
            ([['\x7d', ';']].flatMap (· ++ ['\n']) ++ [])) := by
      rw [String.toList_append, String.toList_append, lines]
      rfl
    have whole : ∀ line ∈ parameters.map fieldLine, '\n' ∉ line :=
      List.forall_mem_map.2 fun q mem => feed_not_mem_fieldLine (named q mem)
    have found : (parameters.map fieldLine).filterMap fieldName? =
        parameters.map Parameter.fieldName := by
      rw [List.filterMap_map, ← List.filterMap_eq_map]
      exact List.filterMap_congr fun q mem => fieldName?_fieldLine (named q mem)
    have before : ["cbuffer MaterialConstants : register(b1)".toList, ['\x7b']].filterMap
        fieldName? = [] := by decide
    have after : ([['\x7d', ';']] ++ Text.splitAtChar '\n' []).filterMap fieldName? = [] := by
      decide
    rw [fieldNames, text, splitAtChar_lines (by decide), splitAtChar_lines whole,
      splitAtChar_lines (by decide), List.filterMap_append, List.filterMap_append, found,
      before, after, List.nil_append, List.append_nil]

/-- The comment above the macros of a texture. -/
def macroComment (q : Parameter) : List Char :=
  "// ".toList ++ q.name.toList ++ " (t".toList ++ Nat.toDigits 10 q.register.toNat ++ [')']

/-- The macro of a texture up to the parenthesis before the index. -/
def macroHead (q : Parameter) (dimension : TextureDimension) : List Char :=
  "#define TEXTURE_".toList ++ q.name.toList ++ ' ' :: (tableName dimension).toList ++
    "[NonUniformResourceIndex".toList

theorem feed_not_mem_macroComment (named : Named q) : '\n' ∉ macroComment q := by
  have name : '\n' ∉ q.name.toList := named.not_mem (by decide)
  have digits : '\n' ∉ Nat.toDigits 10 q.register.toNat :=
    fun mem => nomatch isDigit_of_mem_toDigits mem
  exact List.not_mem_append (List.not_mem_append (List.not_mem_append
    (List.not_mem_append (by decide) name) (by decide)) digits) (by decide)

theorem not_mem_macroHead (named : Named q) (dimension : TextureDimension) :
    '\n' ∉ macroHead q dimension ∧ '(' ∉ macroHead q dimension := by
  have table : '\n' ∉ ' ' :: (tableName dimension).toList ∧
      '(' ∉ ' ' :: (tableName dimension).toList := by
    cases dimension <;> decide
  exact ⟨List.not_mem_append (List.not_mem_append (List.not_mem_append (by decide)
      (named.not_mem (by decide))) table.1) (by decide),
    List.not_mem_append (List.not_mem_append (List.not_mem_append (by decide)
      (named.not_mem (by decide))) table.2) (by decide)⟩

/-- The macros of a texture take the index from the field of its parameter. -/
theorem indexName?_textureMacros (named : Named q) (texture : q.isTexture = true) :
    indexName? (textureMacros q) = some q.fieldName := by
  obtain ⟨dimension, defaultName, content⟩ :
      ∃ dimension defaultName, q.content = .texture dimension defaultName := by
    cases content : q.content with
    | value v =>
      rw [Parameter.isTexture, Parameter.type, content] at texture
      cases texture
    | texture dimension defaultName => exact ⟨dimension, defaultName, rfl⟩
  have text : ∃ rest, (textureMacros q).toList = macroComment q ++ '\n' ::
      ((macroHead q dimension ++ '(' :: (q.fieldName.toList ++ [')', ']'])) ++ '\n' :: rest) := by
    refine ⟨("#define SAMPLE_" ++ q.name ++ "(uv) TEXTURE_" ++ q.name ++
      ".Sample(LinearWrapSampler, uv)\n").toList, ?_⟩
    unfold textureMacros macroComment macroHead
    rw [content]
    simp [toString]
  obtain ⟨rest, text⟩ := text
  have name : ∀ c, Grammar.isNameChar c = false → c ∉ q.fieldName.toList :=
    fun c other => not_mem_of_isName other named.fieldName
  have feed : '\n' ∉ macroHead q dimension ++ '(' :: (q.fieldName.toList ++ [')', ']']) := by
    simp [(not_mem_macroHead named dimension).1, name '\n' (by decide)]
  have argument : '(' ∉ q.fieldName.toList ++ [')', ']'] := by simp [name '(' (by decide)]
  rw [indexName?, text, Text.splitAtChar_line (feed_not_mem_macroComment named),
    Text.splitAtChar_line feed]
  dsimp only
  rw [Text.splitAtChar_line (not_mem_macroHead named dimension).2,
    Text.splitAtChar_single argument]
  dsimp only
  rw [Text.takeWhile_ne_append (name ')' (by decide)), String.ofList_toList]

end Source

/-! ## When they differ -/

/-- No value is named like the index of a texture. -/
def IndicesFree (properties : List Property) : Prop :=
  ∀ t ∈ properties, ∀ v ∈ properties, t.isTexture = true → v.isTexture = false →
    v.name ≠ t.name ++ "_Index"

instance (properties : List Property) : Decidable (IndicesFree properties) :=
  inferInstanceAs (Decidable (∀ t ∈ properties, ∀ v ∈ properties, t.isTexture = true →
    v.isTexture = false → v.name ≠ t.name ++ "_Index"))

namespace Layout

variable {properties : List Property}

theorem fieldName_of_texture {q : Parameter} (texture : q.isTexture = true) :
    q.fieldName = q.name ++ "_Index" := if_pos texture

theorem fieldName_of_value {q : Parameter} (value : q.isTexture = false) :
    q.fieldName = q.name := if_neg (by rw [value]; exact Bool.false_ne_true)

/-- Every parameter is the place of a property. -/
theorem exists_property {q : Parameter} (mem : q ∈ (ofProperties properties).parameters) :
    ∃ p ∈ properties, q.Holds p := by
  obtain ⟨p, listed, holds⟩ := exists_right_of_forall₂ (complete_ofProperties properties) mem
  refine ⟨p, ?_, holds⟩
  rcases List.mem_append.1 listed with listed | listed
  · exact (List.mem_filter.1 listed).1
  · exact (List.mem_filter.1 listed).1

/-- Where no value is named like an index, parameters of different names have different
fields. -/
theorem fieldName_inj (free : IndicesFree properties)
    (distinct : (properties.map Property.name).Nodup) {q r : Parameter}
    (mem : q ∈ (ofProperties properties).parameters)
    (mem' : r ∈ (ofProperties properties).parameters) (same : q.fieldName = r.fieldName) :
    q = r := by
  have apart {t v : Parameter} (mem : t ∈ (ofProperties properties).parameters)
      (mem' : v ∈ (ofProperties properties).parameters) (texture : t.isTexture = true)
      (value : v.isTexture = false) : v.fieldName ≠ t.fieldName := by
    obtain ⟨p, listed, holds⟩ := exists_property mem
    obtain ⟨p', listed', holds'⟩ := exists_property mem'
    rw [fieldName_of_texture texture, fieldName_of_value value, holds.name, holds'.name]
    exact free p listed p' listed' (holds.isTexture ▸ texture) (holds'.isTexture ▸ value)
  have names : q.name = r.name := by
    cases texture : q.isTexture <;> cases texture' : r.isTexture
    · rwa [fieldName_of_value texture, fieldName_of_value texture'] at same
    · exact absurd same (apart mem' mem texture' texture)
    · exact absurd same.symm (apart mem mem' texture texture')
    · rw [fieldName_of_texture texture, fieldName_of_texture texture'] at same
      exact (String.append_left_inj _).1 same
  exact List.inj_on_of_nodup_map (nodup_names distinct) mem mem' names

/-- A value that is named like the index of a texture has the field of the texture. -/
theorem fieldName_clash {t v : Property} (listed : t ∈ properties) (listed' : v ∈ properties)
    (texture : t.isTexture = true) (value : v.isTexture = false)
    (clash : v.name = t.name ++ "_Index") :
    ∃ q ∈ (ofProperties properties).parameters, ∃ r ∈ (ofProperties properties).parameters,
      q.isTexture = true ∧ r.isTexture = false ∧ q.fieldName = r.fieldName := by
  obtain ⟨q, mem, holds⟩ := exists_parameter listed
  obtain ⟨r, mem', holds'⟩ := exists_parameter listed'
  have texture' : q.isTexture = true := holds.isTexture.trans texture
  have value' : r.isTexture = false := holds'.isTexture.trans value
  refine ⟨q, mem, r, mem', texture', value', ?_⟩
  rw [fieldName_of_texture texture', fieldName_of_value value', holds.name, holds'.name, clash]

/-- The fields of parameters differ exactly where no value is named like an index. -/
theorem nodup_fieldNames_iff (distinct : (properties.map Property.name).Nodup) :
    ((ofProperties properties).parameters.map Parameter.fieldName).Nodup ↔
      IndicesFree properties := by
  constructor
  · intro differ t listed v listed' texture value clash
    obtain ⟨q, mem, r, mem', is, other, same⟩ :=
      fieldName_clash listed listed' texture value clash
    rw [List.inj_on_of_nodup_map differ mem mem' same, other] at is
    cases is
  · exact fun free => (nodup_names distinct).of_map.map_on fun q mem r mem' =>
      fieldName_inj free distinct mem mem'

end Layout

namespace Source

/-- Every generated source declares the constants, and the macros of the textures after them. -/
theorem generate_eq_constants_macros (definition : Definition) (index : Nat) (kind : PassKind)
    (parameters : List Parameter) (models : List ShadingModel) (options : SourceOptions) :
    ∃ before between after, generate definition index kind parameters models options =
      before ++ materialConstants parameters ++ between ++
        String.join (parameters.map textureMacros) ++ after := by
  have table : ∃ start, textureTable parameters options =
      start ++ String.join (parameters.map textureMacros) := ⟨_, rfl⟩
  obtain ⟨start, table⟩ := table
  have further {text part : String} (more : String) (is : ∃ after, text = part ++ after) :
      ∃ after, text ++ more = part ++ after := by
    obtain ⟨after, rfl⟩ := is
    exact ⟨after ++ more, by rw [String.append_assoc]⟩
  have whole : ∃ before after, generate definition index kind parameters models options =
      before ++ materialConstants parameters ++ "\n" ++ textureTable parameters options ++ after :=
    -- Five parts follow the table.
    ⟨_, further _ (further _ (further _ (further _ (further _ ⟨"", String.append_empty.symm⟩))))⟩
  obtain ⟨before, after, is⟩ := whole
  exact ⟨before, "\n" ++ start, after, by rw [is, table]; simp only [String.append_assoc]⟩

/-- **When the fields of the constants differ.** Let the properties that a text declares have
names that differ. Every generated source declares the constants in a text that names one field
for each parameter, in order, and the macros of each texture use its field. No field is declared
twice exactly if no value is named like the index of a texture; and then, and only then, the
field that the macros of a texture use is declared for this texture alone. -/
theorem fields_unique_iff {text : String} {d : Definition}
    (parsed : Definition.parse text = .ok d) (distinct : (d.properties.map Property.name).Nodup)
    {shared : Bool} {limit : UInt32} {shader : Shader}
    (made : Shader.ofDefinition d shared limit = .ok shader) :
    (∀ index kind models options, ∃ before between after,
      generate d index kind shader.layout.parameters models options =
        before ++ materialConstants shader.layout.parameters ++ between ++
          String.join (shader.layout.parameters.map textureMacros) ++ after) ∧
    fieldNames (materialConstants shader.layout.parameters) =
      shader.layout.parameters.map Parameter.fieldName ∧
    (∀ q ∈ shader.layout.parameters, q.isTexture = true →
      indexName? (textureMacros q) = some q.fieldName) ∧
    ((fieldNames (materialConstants shader.layout.parameters)).Nodup ↔
      IndicesFree d.properties) ∧
    ((∀ q ∈ shader.layout.parameters, q.isTexture = true →
      ∀ r ∈ shader.layout.parameters, indexName? (textureMacros q) = some r.fieldName → r = q) ↔
        IndicesFree d.properties) := by
  have layout := Shader.layout_of_ofDefinition made
  have named : ∀ q ∈ shader.layout.parameters, Named q := by
    intro q mem
    obtain ⟨p, listed, holds⟩ := Layout.exists_property (layout ▸ mem)
    rw [Named, holds.name]
    exact Grammar.isName_of_parsed parsed listed
  have declared := fieldNames_materialConstants named
  have used (q : Parameter) (mem : q ∈ shader.layout.parameters) (texture : q.isTexture = true) :=
    indexName?_textureMacros (named q mem) texture
  refine ⟨fun _ _ _ _ => generate_eq_constants_macros _ _ _ _ _ _, declared, used, ?_, ?_⟩
  · rw [declared, layout]
    exact Layout.nodup_fieldNames_iff distinct
  · constructor
    · intro own t listed v listed' texture value clash
      obtain ⟨q, mem, r, mem', is, other, same⟩ :=
        Layout.fieldName_clash listed listed' texture value clash
      rw [← layout] at mem mem'
      rw [own q mem is r mem' (same ▸ used q mem is), is] at other
      cases other
    · intro free q mem texture r mem' same
      rw [used q mem texture, Option.some.injEq] at same
      rw [layout] at mem mem'
      exact Layout.fieldName_inj free distinct mem' mem same.symm

/-- A text whose names come close to those of indices. -/
def domeText : String :=
  "Shader \"Dome\" \x7b Properties \x7b\n//# Float Sky_\n//# Texture2D Sky\n" ++
    "//# TextureCube Sky_Index\n\x7d " ++
    "Pass \x7b HLSLPROGRAM\n#pragma vertex V\n#pragma fragment P\nENDHLSL \x7d \x7d"

/-- What it declares. -/
def dome : Definition :=
  ⟨"Dome", .forward,
    [.plain "Sky_" (.value .float), .plain "Sky" (.texture .d2),
      .plain "Sky_Index" (.texture .cube)],
    [⟨"Pass0", .forward, "V", "P", ""⟩], none⟩

theorem dome_fields_unique :
    Definition.parse domeText = .ok dome ∧ (dome.properties.map Property.name).Nodup ∧
    (∀ shared limit shader, Shader.ofDefinition dome shared limit = .ok shader →
      (fieldNames (materialConstants shader.layout.parameters)).Nodup) ∧
    (Layout.ofProperties dome.properties).parameters.map Parameter.fieldName =
      ["Sky_", "Sky_Index", "Sky_Index_Index"] := by
  have parsed : Definition.parse domeText = .ok dome := ok_of_toOption (by decide +kernel)
  have distinct : (dome.properties.map Property.name).Nodup := by decide +kernel
  refine ⟨parsed, distinct, fun _ _ _ made => ?_, by decide +kernel⟩
  exact (fields_unique_iff parsed distinct made).2.2.2.1.2 (by decide +kernel)

/-- A text that names a value like the index of a texture. -/
def skyText : String :=
  "Shader \"Dome\" \x7b Properties \x7b\n//# Float Sky_Index\n//# Texture2D Sky\n\x7d " ++
    "Pass \x7b HLSLPROGRAM\n#pragma vertex V\n#pragma fragment P\nENDHLSL \x7d \x7d"

/-- What it declares. -/
def sky : Definition :=
  ⟨"Dome", .forward, [.plain "Sky_Index" (.value .float), .plain "Sky" (.texture .d2)],
    [⟨"Pass0", .forward, "V", "P", ""⟩], none⟩

/-- The text is read without an error, the names of its properties differ, and one field is
declared twice. -/
theorem sky_field_declared_twice :
    (Definition.parse skyText = .ok sky ∧ (sky.properties.map Property.name).Nodup ∧
      fieldNames (materialConstants (Layout.ofProperties sky.properties).parameters) =
        ["Sky_Index", "Sky_Index"]) ∧
    ¬ ∀ text d, Definition.parse text = .ok d → (d.properties.map Property.name).Nodup →
      (fieldNames (materialConstants (Layout.ofProperties d.properties).parameters)).Nodup := by
  have parsed : Definition.parse skyText = .ok sky := ok_of_toOption (by decide +kernel)
  have distinct : (sky.properties.map Property.name).Nodup := by decide +kernel
  have names : fieldNames (materialConstants (Layout.ofProperties sky.properties).parameters) =
      ["Sky_Index", "Sky_Index"] := by decide +kernel
  refine ⟨⟨parsed, distinct, names⟩, fun all => ?_⟩
  have nodup := all skyText sky parsed distinct
  rw [names] at nodup
  revert nodup
  decide +kernel

end Source

end SurfaceShading
