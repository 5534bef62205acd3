/-
  Where generated sources and compiler reports are put. Between the slashes of such a path stand
  escaped texts, the last of them with an extension behind it (`toList_sourceName`,
  `toList_reportName`). An escaped text holds ASCII letters and digits, underscores, hyphens and
  percent signs, so no piece of the path is a dot or two; and a path without such pieces leads,
  from the directory of the cache, to what it spells below that directory
  (`Disk.locate_spelled`).

  Nothing is assumed of the names of shaders and passes: they are texts of any characters.
-/
import SurfaceShading.Proofs.Artifact
import SurfaceShading.Proofs.Walk

namespace SurfaceShading

theorem Text.intercalate_eq_joinWith (sep : List Char) (l : List (List Char)) :
    sep.intercalate l = joinWith sep l := by
  induction l with
  | nil => rfl
  | cons piece l ih =>
    cases l with
    | nil => exact List.intercalate_singleton
    | cons next l => rw [List.intercalate_cons_cons, ih, joinWith_cons _ _ (List.cons_ne_nil _ _)]

/-! ## Paths without dots -/

namespace Disk

/-- A path without dots leads to what it spells below the directory it is joined to. -/
theorem locate_spelled {disk : Disk} {base path : String} {place : Place}
    (located : disk.locate (Path.join base path) = .ok place)
    (relative : Path.isAbsolute path = false)
    (name : Path.endsWithSlash (Path.join base path) = false) (more : Path.steps path ≠ [])
    (noDots : ∀ step ∈ Path.steps path, step ≠ "." ∧ step ≠ "..") :
    ∃ names, disk.follow [] (Path.steps base) = .ok (.directory names) ∧
      place.names = names ++ Path.steps path := by
  obtain ⟨steps, below, walk⟩ := except_bind_eq_ok.1 located
  obtain ⟨-, -, rfl⟩ := stepsBelow_eq_ok.1 below
  rw [name, if_neg Bool.false_ne_true, Path.steps_join relative, follow_append disk more] at walk
  obtain ⟨first, toBase, rest⟩ := except_bind_eq_ok.1 walk
  obtain ⟨names, enter, fromBase⟩ := except_bind_eq_ok.1 rest
  cases first with
  | directory _ =>
    cases enter
    exact ⟨names, toBase, follow_spelled fromBase noDots⟩
  | file _ _ => cases enter
  | absent _ => cases enter

end Disk

namespace Artifact

/-! ## The characters of escaped texts -/

/-- The characters that escaped texts are made of. -/
def isLegal (c : Char) : Bool := c.isAlphanum || c == '_' || c == '%' || c == '-'

theorem isLegal_escapeByte {b : Nat} (byte : b < 256) :
    ∀ c ∈ escapeByte (UInt8.ofNat b), isLegal c = true := by
  have all : ((List.range 256).all fun b => (escapeByte (UInt8.ofNat b)).all isLegal) = true := by
    decide +kernel
  exact List.all_eq_true.1 (List.all_eq_true.1 all b (List.mem_range.2 byte))

theorem isLegal_of_mem_escaped {c : Char} {cs : List Char} (mem : c ∈ escaped cs) :
    isLegal c = true := by
  obtain ⟨b, -, mem⟩ := List.mem_flatMap.1 mem
  rw [← UInt8.ofNat_toNat (x := b)] at mem
  exact isLegal_escapeByte b.toNat_lt_size c mem

/-- An escaped text is read back as the text it was. -/
theorem ofUtf8?_unescape (text : String) :
    Text.ofUtf8? (unescape (escape text).toList) = some text := by
  rw [toList_escape, unescape_escaped, String.ofList_toList, Text.ofUtf8?, Text.utf8,
    Array.toArray_toList]
  exact dif_pos text.isValidUTF8

theorem escape_injective : Function.Injective escape := by
  intro s t same
  have read := ofUtf8?_unescape s
  rw [same, ofUtf8?_unescape t] at read
  exact (Option.some.inj read).symm

/-! ## The pieces of a path -/

/-- The pieces of a path of the cache: the directories of a shader, and a text with an extension
behind it, all of them escaped. -/
def pieces (shader : String) (last : List Char) (ext : String) : List (List Char) :=
  (directories shader).map escaped ++ [escaped last ++ ext.toList]

/-- The path of a report is that of the source of a pass named "error", the extension apart. -/
theorem toList_reportName (shader : String) (index : Nat) :
    (reportName shader index).toList =
      ['/'].intercalate (pieces shader (joined shader index "error") ".txt") := by
  have plain : (escape "error").toList = "error".toList := by decide +kernel
  have written : (reportName shader index).toList = (stem shader).toList ++
      ('_' :: Nat.toDigits 10 index ++ '_' :: (escape "error").toList ++ ".txt".toList) := by
    rw [plain]
    unfold reportName
    simp [toString]
  rw [written, toList_stem_append, pieces]

theorem ne_nil_of_mem_directories {shader : String} {text : List Char}
    (mem : text ∈ directories shader) : text ≠ [] :=
  (step_of_mem_steps (List.mem_of_mem_dropLast mem)).1

end Artifact

/-! ## Paths of the cache -/

/-- A path of files with some extension that a shader has in the cache. -/
structure Confined (shader ext path : String) : Prop where
  relative : Path.isAbsolute path = false
  /-- What stands between the slashes are the directories of the shader and one text more, all
  of them escaped, with the extension at the end. -/
  escapes : ∃ last, Text.splitAtChar '/' path.toList =
    (Artifact.directories shader).map Artifact.escaped ++ [Artifact.escaped last ++ ext.toList]
  /-- The extension apart, nothing is empty and all characters are legal. -/
  legal : ∃ above last, Text.splitAtChar '/' path.toList = above ++ [last ++ ext.toList] ∧
    ∀ piece ∈ above ++ [last], piece ≠ [] ∧ ∀ c ∈ piece, Artifact.isLegal c = true
  noDots : ∀ piece ∈ Text.splitAtChar '/' path.toList,
    piece ≠ [] ∧ piece ≠ ['.'] ∧ piece ≠ ['.', '.']
  /-- Whatever the path leads to, on any disk, is what it spells below the cache. -/
  inside : ∀ (disk : Disk) (cache : String) (place : Disk.Place),
    disk.locate (Path.join cache path) = .ok place →
      ∃ names, disk.follow [] (Path.steps cache) = .ok (.directory names) ∧
        place.names = names ++ Path.steps path

namespace Artifact

/-- No piece that starts with an escaped text is empty or made of dots. -/
theorem noDots_of_escaped {text : List Char} (nonempty : text ≠ []) (tail : List Char) :
    escaped text ++ tail ≠ [] ∧ escaped text ++ tail ≠ ['.'] ∧
      escaped text ++ tail ≠ ['.', '.'] := by
  obtain ⟨c, cs, is⟩ := List.exists_cons_of_ne_nil (escaped_ne_nil nonempty)
  have first : c ∈ escaped text := is ▸ List.mem_cons_self
  have legal : isLegal c = true := isLegal_of_mem_escaped first
  have dot : c ≠ '.' := by
    rintro rfl
    exact absurd legal (by decide)
  rw [is]
  exact ⟨nofun, fun same => dot (List.cons.inj same).1, fun same => dot (List.cons.inj same).1⟩

section

variable {shader ext path : String} {last : List Char}

theorem splitAtChar_path (extension : Path.IsName ext)
    (is : path.toList = ['/'].intercalate (pieces shader last ext)) :
    Text.splitAtChar '/' path.toList = pieces shader last ext := by
  rw [is, Text.intercalate_eq_joinWith]
  refine Text.splitAtChar_joinWith (List.append_ne_nil_of_right_ne_nil _ (List.cons_ne_nil _ _))
    fun piece mem => ?_
  rcases List.mem_append.1 mem with above | below
  · obtain ⟨text, -, rfl⟩ := List.mem_map.1 above
    exact slash_not_mem_escaped text
  · rw [List.mem_singleton.1 below, List.mem_append]
    exact not_or.2 ⟨slash_not_mem_escaped last, extension.noSlash⟩

theorem noDots_of_mem_pieces {piece : List Char} (nonempty : last ≠ [])
    (mem : piece ∈ pieces shader last ext) :
    piece ≠ [] ∧ piece ≠ ['.'] ∧ piece ≠ ['.', '.'] := by
  rcases List.mem_append.1 mem with above | below
  · obtain ⟨text, listed, rfl⟩ := List.mem_map.1 above
    simpa using noDots_of_escaped (ne_nil_of_mem_directories listed) []
  · rw [List.mem_singleton.1 below]
    exact noDots_of_escaped nonempty ext.toList

/-- All characters are legal, the extension apart. -/
theorem legal_pieces (nonempty : last ≠ []) {piece : List Char}
    (mem : piece ∈ (directories shader).map escaped ++ [escaped last]) :
    piece ≠ [] ∧ ∀ c ∈ piece, isLegal c = true := by
  rcases List.mem_append.1 mem with above | below
  · obtain ⟨text, listed, rfl⟩ := List.mem_map.1 above
    exact ⟨escaped_ne_nil (ne_nil_of_mem_directories listed), fun _ => isLegal_of_mem_escaped⟩
  · rw [List.mem_singleton.1 below]
    exact ⟨escaped_ne_nil nonempty, fun _ => isLegal_of_mem_escaped⟩

/-- A path of escaped texts stays below the cache. -/
theorem confined (nonempty : last ≠ []) (extension : Path.IsName ext)
    (is : path.toList = ['/'].intercalate (pieces shader last ext)) : Confined shader ext path := by
  have split := splitAtChar_path extension is
  have noDots : ∀ piece ∈ Text.splitAtChar '/' path.toList,
      piece ≠ [] ∧ piece ≠ ['.'] ∧ piece ≠ ['.', '.'] :=
    fun piece mem => noDots_of_mem_pieces nonempty (split ▸ mem)
  have relative : Path.isAbsolute path = false := by
    have head := Path.head?_intercalate (l := pieces shader last ext) fun piece mem =>
      ⟨(noDots_of_mem_pieces nonempty mem).1, Text.not_mem_of_mem_splitAtChar (split ▸ mem)⟩
    rw [← is] at head
    simpa [Path.isAbsolute] using head
  have steps : Path.steps path = (pieces shader last ext).map String.ofList := by
    rw [Path.steps, split, List.filter_eq_self.2]
    intro piece mem
    simpa using (noDots_of_mem_pieces nonempty mem).1
  have ends : Path.EndsIn path ext.toList :=
    ⟨['/'].intercalate ((directories shader).map escaped ++ [escaped last]), by
      rw [intercalate_concat, is, pieces]⟩
  refine ⟨relative, ⟨last, split⟩, ⟨_, _, split, fun piece => legal_pieces nonempty⟩, noDots,
    fun disk cache place located => ?_⟩
  refine Disk.locate_spelled located relative
    ((ends.join cache).not_endsWithSlash extension.noSlash extension.nonempty) ?_ ?_
  · rw [steps]
    simp [pieces]
  · intro step mem
    rw [steps] at mem
    obtain ⟨piece, listed, rfl⟩ := List.mem_map.1 mem
    obtain ⟨-, notDot, notUp⟩ := noDots_of_mem_pieces nonempty listed
    exact ⟨fun same => notDot (String.ofList_injective same),
      fun same => notUp (String.ofList_injective same)⟩

end

theorem joined_ne_nil (shader : String) (index : Nat) (pass : String) :
    joined shader index pass ≠ [] := by
  rw [joined, List.append_assoc]
  exact List.append_ne_nil_of_right_ne_nil _ (List.cons_ne_nil _ _)

/-- **The files of the cache stay in it.** Whatever a shader and its passes are called, the files
of its sources and reports have paths of escaped texts, which lead below the cache. Escaping is
undone by `unescape`, so no two texts have one escaped form. -/
theorem paths_confined (shader pass : String) (index : Nat) :
    Confined shader ".hlsl" (sourceName shader index pass) ∧
      Confined shader ".txt" (reportName shader index) ∧
      Function.Injective escape ∧
      ∀ text, Text.ofUtf8? (unescape (escape text).toList) = some text := by
  refine ⟨?_, ?_, escape_injective, ofUtf8?_unescape⟩
  · exact confined (joined_ne_nil shader index pass) ⟨by decide, by decide⟩
      (toList_sourceName shader index pass)
  · exact confined (joined_ne_nil shader index "error") ⟨by decide, by decide⟩
      (toList_reportName shader index)

end Artifact

end SurfaceShading
