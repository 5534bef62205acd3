/-
  Material files that are written and read.

  Main statement: a file whose numbers are finite, with any names, texts and paths, is read from
  its text as it was, number by number bit for bit (`MaterialFile.reads_printed`).
-/
import SurfaceShading.Proofs.Json.Printing
import SurfaceShading.Proofs.Number.Written
import SurfaceShading.Proofs.OrderedMap

namespace SurfaceShading

/-- What is written item by item and read item by item comes back if each item does. -/
theorem mapM_map_of_inverse {α β : Type} {write : α → β} {read? : β → Option α} {l : List α}
    (inverse : ∀ a ∈ l, read? (write a) = some a) : (l.map write).mapM read? = some l := by
  induction l with
  | nil => rfl
  | cons a l ih =>
    rw [List.map_cons, List.mapM_cons, inverse a List.mem_cons_self,
      ih fun b mem => inverse b (List.mem_cons_of_mem a mem)]
    rfl

namespace Json

@[simp] theorem members?_keyed (members : List (String × Json)) :
    (object (keyed members)).members? = some members :=
  mapM_map_of_inverse fun _ _ => rfl

end Json

namespace Value

/-! ## Values -/

theorem printable_floatToJson {x : Binary32} (finite : x.isFinite = true) :
    (floatToJson x).Printable := by
  obtain ⟨l, text, _⟩ := exists_literal finite
  rw [floatToJson, if_pos finite, text]
  exact .number l

theorem binary32?_floatToJson {x : Binary32} (finite : x.isFinite = true) :
    (floatToJson x).binary32? = some x := by
  obtain ⟨l, text, read⟩ := exists_literal finite
  rw [floatToJson, if_pos finite, text, read]

variable {v : Value} (finite : v.isFinite = true)
include finite

theorem finite_of_mem {x : Binary32} (mem : x ∈ v.components) : x.isFinite = true :=
  List.all_eq_true.1 finite x mem

theorem printable_content : v.contentToJson.Printable := by
  have numbers : (Json.array (v.components.map floatToJson)).Printable := by
    refine .array fun item mem => ?_
    obtain ⟨x, component, rfl⟩ := List.mem_map.1 mem
    exact printable_floatToJson (finite_of_mem finite component)
  cases v with
  | float x => exact printable_floatToJson (finite_of_mem finite List.mem_cons_self)
  | int n =>
    obtain ⟨l, text, _⟩ := exists_literal_int n
    rw [contentToJson, text]
    exact .number l
  | bool b => exact .bool b
  | vector2 | vector3 | vector4 => exact numbers

theorem printable_toJson : v.toJson.Printable := by
  have members : ∀ m ∈ [("type", Json.string (some v.type.name)), ("value", v.contentToJson)],
      m.2.Printable := by
    simp only [List.forall_mem_cons]
    exact ⟨.string _, printable_content finite, by simp⟩
  exact .object members

theorem ofJson?_content : ofJson? v.type v.contentToJson = some v := by
  have numbers : (v.components.map floatToJson).mapM Json.binary32? = some v.components :=
    mapM_map_of_inverse fun x mem => binary32?_floatToJson (finite_of_mem finite mem)
  cases v with
  | float x =>
    have read := binary32?_floatToJson (finite_of_mem finite List.mem_cons_self)
    rw [type, ofJson?, contentToJson, read, Option.map_some]
  | int n =>
    obtain ⟨l, text, read⟩ := exists_literal_int n
    rw [type, ofJson?, contentToJson, text, read, Option.map_some]
  | bool b => rfl
  | vector2 | vector3 | vector4 =>
    simp only [type, ofJson?, contentToJson, Json.items?, Option.bind_eq_bind, Option.bind_some,
      numbers]
    rfl

omit finite in
theorem typeOfName?_name (t : ValueType) : typeOfName? t.name = some t := by
  cases t <;> rfl

theorem ofTagged?_toJson : ofTagged? v.toJson = some v := by
  have tagged : ofTagged? v.toJson =
      (typeOfName? v.type.name).bind fun t => ofJson? t v.contentToJson := rfl
  rw [tagged, typeOfName?_name, Option.bind_some, ofJson?_content finite]

end Value

namespace MaterialFile

/-! ## Files -/

/-- The JSON form of a map whose values are written in a given way. -/
def mapToJson {α : Type} (write : α → Json) (m : OrderedMap String α) : Json :=
  .object (Json.keyed (m.entries.map fun e => (e.1, write e.2)))

section

variable {α : Type} {write : α → Json} {m : OrderedMap String α}

theorem printable_mapToJson (all : ∀ e ∈ m.entries, (write e.2).Printable) :
    (mapToJson write m).Printable := by
  refine .object fun member mem => ?_
  obtain ⟨e, entry, rfl⟩ := List.mem_map.1 mem
  exact all e entry

/-- A map is read from its entries, if each value is. -/
theorem readMap?_mapToJson {read? : Json → Option α} (sorted : m.Sorted)
    (inverse : ∀ e ∈ m.entries, read? (write e.2) = some e.2) :
    readMap? read? (mapToJson write m) = some m := by
  have values : (m.entries.map fun e => (e.1, write e.2)).mapM
      (fun e => (read? e.2).map fun v => (e.1, v)) = some m.entries := by
    refine mapM_map_of_inverse fun e mem => ?_
    rw [inverse e mem, Option.map_some]
  rw [readMap?, mapToJson, Json.members?_keyed, Option.bind_eq_bind, Option.bind_some, values]
  exact congrArg some sorted.ofList_entries

end

theorem toJson_eq (file : MaterialFile) : file.toJson = .object (Json.keyed [
    ("name", .string (some file.name)), ("shader", .string (some file.shader)),
    ("parameters", mapToJson Value.toJson file.parameters),
    ("textures", mapToJson (fun path => .string (some path)) file.textures)]) := by
  simp [toJson, mapToJson, Json.keyed]

section

variable {file : MaterialFile}
  (finite : ∀ e ∈ file.parameters.entries, e.2.isFinite = true)
include finite

theorem printable_toJson : file.toJson.Printable := by
  rw [toJson_eq]
  refine .object ?_
  simp only [List.forall_mem_cons]
  exact ⟨.string _, .string _,
    printable_mapToJson fun e mem => Value.printable_toJson (finite e mem),
    printable_mapToJson fun e _ => .string e.2, by simp⟩

variable (parameters : file.parameters.Sorted) (textures : file.textures.Sorted)
include parameters textures

theorem ofJson?_toJson : ofJson? file.toJson = some file := by
  have values : readMap? Value.ofTagged? (mapToJson Value.toJson file.parameters) =
      some file.parameters :=
    readMap?_mapToJson parameters fun e mem => Value.ofTagged?_toJson (finite e mem)
  have paths : readMap? Json.text? (mapToJson (fun path => .string (some path)) file.textures) =
      some file.textures := readMap?_mapToJson textures fun _ _ => rfl
  have fields : ofJson? file.toJson = ofFields? (.string (some file.name))
      (.string (some file.shader)) [mapToJson Value.toJson file.parameters]
      [mapToJson (fun path => .string (some path)) file.textures] := by
    rw [toJson_eq, ofJson?, Json.members?_keyed]
    · rfl
    · rintro _ _ _ ⟨⟩
  rw [fields, ofFields?, readOptional?, readOptional?, values, paths]
  rfl

/-- **Files come back.** A file is read from its text as it was: the name, the shader, every key
and every path with the same characters, every whole number and truth value the same, and every
finite number with the same bits. A map lists its keys in ascending order. -/
theorem reads_printed : parse? file.print = some file := by
  rw [parse?, print, Json.parse?_print (printable_toJson finite), Option.bind_some,
    ofJson?_toJson finite parameters textures]

end

/-- A file with negative zero, the least and the greatest number, and texts that are escaped. -/
def extremes : MaterialFile where
  name := "Wet \"stone\"\n\x01é"
  shader := "Stone\\Base"
  parameters := ⟨[("Gloss", .float ⟨0x80000000⟩), ("Layers", .int (-2147483648)),
    ("Tint", .vector3 ⟨1⟩ ⟨0x7f7fffff⟩ ⟨0xff7fffff⟩), ("Wet", .bool true)]⟩
  textures := ⟨[("Cover", "paint/ü.png")]⟩

theorem extremes_read : (∀ e ∈ extremes.parameters.entries, e.2.isFinite = true) ∧
    extremes.parameters.Sorted ∧ extremes.textures.Sorted ∧
    parse? extremes.print = some extremes := by
  have finite : ∀ e ∈ extremes.parameters.entries, e.2.isFinite = true := by decide
  have parameters : extremes.parameters.Sorted := by
    unfold OrderedMap.Sorted
    decide
  have textures : extremes.textures.Sorted := by
    unfold OrderedMap.Sorted
    decide
  exact ⟨finite, parameters, textures, reads_printed finite parameters textures⟩

end MaterialFile

end SurfaceShading
