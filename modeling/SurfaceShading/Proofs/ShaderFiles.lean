/-
  The files of shaders on a disk, and what the library's own writing does to them: nothing.
  Generated sources and compiler reports never bear the extension of shader files, and making
  directories replaces no file, so the disk before and after has the same shader files
  (`Disk.SameShaderFiles`).

  Two disks with the same shader files need not give the same answer for a name: a directory
  that one of them lacks makes a path lead nowhere. But two readings that both succeed give
  one text (`ShaderSources.read_unique`).
-/
import SurfaceShading.Proofs.OrderedMap
import SurfaceShading.Proofs.Outcome
import SurfaceShading.Proofs.Text.Cuts
import SurfaceShading.Shader.Sources

namespace SurfaceShading

/-! ## The last step of a path -/

namespace Text

/-- A text that ends in characters other than the separator has them at the end of its last
piece. -/
theorem getLast?_splitAtChar {sep : Char} {tail : List Char} (none : sep ∉ tail)
    (cs : List Char) :
    ∃ piece, (splitAtChar sep (cs ++ tail)).getLast? = some piece ∧ tail <:+ piece := by
  induction cs with
  | nil => exact ⟨tail, by rw [List.nil_append, splitAtChar_single none]; rfl,
      List.suffix_refl tail⟩
  | cons c cs ih =>
    obtain ⟨piece, last, suffix⟩ := ih
    obtain ⟨init, split⟩ := List.getLast?_eq_some_iff.1 last
    rw [List.cons_append, splitAtChar, split]
    by_cases same : c = sep
    · refine ⟨piece, ?_, suffix⟩
      rw [if_pos same, ← List.cons_append, List.getLast?_concat]
    · rw [if_neg same]
      cases init with
      | nil => exact ⟨c :: piece, rfl, suffix.trans (List.suffix_cons c piece)⟩
      | cons first init =>
        refine ⟨piece, ?_, suffix⟩
        show ((c :: first) :: (init ++ [piece])).getLast? = some piece
        rw [← List.cons_append, List.getLast?_concat]

end Text

namespace Path

/-- A path ends in some characters. -/
def EndsIn (path : String) (tail : List Char) : Prop := tail <:+ path.toList

theorem EndsIn.join {path : String} {tail : List Char} (ends : EndsIn path tail)
    (base : String) : EndsIn (join base path) tail := by
  unfold EndsIn Path.join at *
  split
  · exact ends
  · split
    · rw [String.toList_append]; exact ends.trans (List.suffix_append ..)
    · rw [String.toList_append]; exact ends.trans (List.suffix_append ..)

theorem EndsIn.getLast?_steps {path : String} {tail : List Char} (ends : EndsIn path tail)
    (noSlash : '/' ∉ tail) (nonempty : tail ≠ []) :
    ∃ last, (steps path).getLast? = some last ∧ tail <:+ last.toList := by
  obtain ⟨front, eq⟩ := ends
  obtain ⟨piece, last, suffix⟩ := Text.getLast?_splitAtChar noSlash front
  obtain ⟨init, split⟩ := List.getLast?_eq_some_iff.1 last
  have kept : [piece].filter (! ·.isEmpty) = [piece] := by
    cases piece with
    | nil => exact absurd (List.suffix_nil.1 suffix) nonempty
    | cons c cs => rfl
  refine ⟨String.ofList piece, ?_, by rwa [String.toList_ofList]⟩
  rw [steps, ← eq, split, List.filter_append, kept, List.map_append, List.map_singleton,
    List.getLast?_concat]

theorem EndsIn.not_endsWithSlash {path : String} {tail : List Char} (ends : EndsIn path tail)
    (noSlash : '/' ∉ tail) (nonempty : tail ≠ []) : endsWithSlash path = false := by
  obtain ⟨front, eq⟩ := ends
  rw [endsWithSlash, ← eq, List.getLast?_append]
  cases last : tail.getLast? with
  | none => exact absurd (List.getLast?_eq_none_iff.1 last) nonempty
  | some c =>
    have other : c ≠ '/' := fun same => noSlash (same ▸ List.mem_of_getLast? last)
    simpa using other

end Path

/-! ## Where a path leads -/

namespace Disk

/-- What a walk that comes to a place does at its first step. -/
inductive FirstStep (disk : Disk) (names : List String) (step : String) (rest : List String)
    (place : Place) : Prop
  | stay (here : step = ".") (walk : follow disk names rest = .ok place)
  | up (notHere : step ≠ ".") (up : step = "..") (walk : follow disk names.dropLast rest = .ok place)
  | enter (notHere : step ≠ ".") (notUp : step ≠ "..") (fits : ¬ maxNameBytes < step.utf8ByteSize)
      (there : disk.get? (names ++ [step]) = some .directory)
      (walk : follow disk (names ++ [step]) rest = .ok place)
  | file {bytes : List UInt8} (notHere : step ≠ ".") (notUp : step ≠ "..")
      (fits : ¬ maxNameBytes < step.utf8ByteSize)
      (there : disk.get? (names ++ [step]) = some (.file bytes)) (last : rest = [])
      (is : place = .file (names ++ [step]) bytes)
  | absent (notHere : step ≠ ".") (notUp : step ≠ "..")
      (fits : ¬ maxNameBytes < step.utf8ByteSize)
      (nothing : disk.get? (names ++ [step]) = none) (last : rest = [])
      (is : place = .absent (names ++ [step]))

theorem follow_cons_eq_ok {disk : Disk} {names rest : List String} {step : String}
    {place : Place} :
    follow disk names (step :: rest) = .ok place ↔ FirstStep disk names step rest place := by
  rw [follow]
  constructor
  · intro walk
    split at walk
    · next here => exact .stay here walk
    · next notHere =>
      split at walk
      · next up => exact .up notHere up walk
      · next notUp =>
        split at walk
        · cases walk
        · next fits =>
          cases there : disk.get? (names ++ [step]) with
          | none =>
            cases rest with
            | nil =>
              simp only [there] at walk
              cases walk
              exact .absent notHere notUp fits there rfl rfl
            | cons next rest => simp only [there] at walk; cases walk
          | some node =>
            cases node with
            | directory =>
              simp only [there] at walk
              exact .enter notHere notUp fits there walk
            | file bytes =>
              cases rest with
              | nil =>
                simp only [there] at walk
                cases walk
                exact .file notHere notUp fits there rfl rfl
              | cons next rest => simp only [there] at walk; cases walk
  · rintro (⟨here, walk⟩ | ⟨notHere, up, walk⟩ | ⟨notHere, notUp, fits, there, walk⟩ |
      ⟨notHere, notUp, fits, there, rfl, rfl⟩ | ⟨notHere, notUp, fits, nothing, rfl, rfl⟩)
    · rw [if_pos here]
      exact walk
    · rw [if_neg notHere, if_pos up]
      exact walk
    · rw [if_neg notHere, if_neg notUp, if_neg fits]
      simp only [there]
      exact walk
    · rw [if_neg notHere, if_neg notUp, if_neg fits]
      simp only [there]
      rfl
    · rw [if_neg notHere, if_neg notUp, if_neg fits]
      simp only [nothing]
      rfl

/-- The names that steps from a directory spell. -/
def resolve (names : List String) : List String → List String
  | [] => names
  | step :: rest =>
    if step = "." then resolve names rest
    else if step = ".." then resolve names.dropLast rest
    else resolve (names ++ [step]) rest

/-- What a walk over steps comes to: a directory, or the names that the steps spell, with a
file there or nothing. In the latter cases the last step is the last name. -/
inductive Reached (disk : Disk) (names steps : List String) : Place → Prop
  | directory (n : List String) : Reached disk names steps (.directory n)
  | file {last : String} {bytes : List UInt8} (step : steps.getLast? = some last)
      (name : (resolve names steps).getLast? = some last)
      (there : disk.get? (resolve names steps) = some (.file bytes)) :
      Reached disk names steps (.file (resolve names steps) bytes)
  | absent {last : String} (step : steps.getLast? = some last)
      (name : (resolve names steps).getLast? = some last)
      (nothing : disk.get? (resolve names steps) = none) :
      Reached disk names steps (.absent (resolve names steps))

theorem Reached.cons {disk : Disk} {names next rest : List String} {step : String}
    {place : Place} (reached : Reached disk next rest place)
    (spelled : resolve names (step :: rest) = resolve next rest) :
    Reached disk names (step :: rest) place := by
  cases reached with
  | directory n => exact .directory n
  | file last name there =>
    rw [← spelled] at name there ⊢
    exact .file (by rw [List.getLast?_cons, last]; rfl) name there
  | absent last name nothing =>
    rw [← spelled] at name nothing ⊢
    exact .absent (by rw [List.getLast?_cons, last]; rfl) name nothing

theorem resolve_cons {names : List String} {step : String} (notHere : step ≠ ".")
    (notUp : step ≠ "..") (rest : List String) :
    resolve names (step :: rest) = resolve (names ++ [step]) rest := by
  rw [resolve, if_neg notHere, if_neg notUp]

theorem follow_reached {disk : Disk} {names steps : List String} {place : Place}
    (walk : follow disk names steps = .ok place) : Reached disk names steps place := by
  induction steps generalizing names with
  | nil => cases walk; exact .directory names
  | cons step rest ih =>
    cases follow_cons_eq_ok.1 walk with
    | stay here walk => exact (ih walk).cons (by rw [resolve, if_pos here])
    | up notHere up walk => exact (ih walk).cons (by rw [resolve, if_neg notHere, if_pos up])
    | enter notHere notUp _ _ walk => exact (ih walk).cons (resolve_cons notHere notUp rest)
    | file notHere notUp _ there last is =>
      subst last is
      have spelled : resolve names [step] = names ++ [step] := resolve_cons notHere notUp []
      have name : (resolve names [step]).getLast? = some step := by
        rw [spelled, List.getLast?_concat]
      rw [← spelled] at there ⊢
      exact .file rfl name there
    | absent notHere notUp _ nothing last is =>
      subst last is
      have spelled : resolve names [step] = names ++ [step] := resolve_cons notHere notUp []
      have name : (resolve names [step]).getLast? = some step := by
        rw [spelled, List.getLast?_concat]
      rw [← spelled] at nothing ⊢
      exact .absent rfl name nothing

/-- A path whose last step is no dot leads to what its steps spell. -/
theorem locate_reached {disk : Disk} {path : String} {tail : List Char} {place : Place}
    (ends : Path.EndsIn path tail) (noSlash : '/' ∉ tail) (nonempty : tail ≠ [])
    (located : disk.locate path = .ok place) : Reached disk [] (Path.steps path) place := by
  obtain ⟨steps, below, walk⟩ := except_bind_eq_ok.1 located
  rw [ends.not_endsWithSlash noSlash nonempty] at walk
  obtain ⟨_, _, checked⟩ := except_bind_eq_ok.1 below
  split at checked
  · cases checked
  · cases checked; exact follow_reached walk

end Disk

/-! ## Shader files -/

namespace ShaderSources

/-- What the names of shader files end in. -/
def fileTail : List Char := ("." ++ extension).toList

/-- The names that lead to a shader file, as far as the last of them tells. -/
def IsShaderFile (names : List String) : Prop :=
  ∃ last, names.getLast? = some last ∧ fileTail <:+ last.toList

theorem path?_endsIn {sources : ShaderSources} {name path : String}
    (path? : sources.path? name = some path) : Path.EndsIn path fileTail := by
  obtain ⟨dir, _, rfl⟩ := Option.map_eq_some_iff.1 path?
  refine Path.EndsIn.join ?_ dir
  rw [Path.EndsIn, String.append_assoc, String.toList_append]
  exact List.suffix_append ..

end ShaderSources

/-- A path that ends in a character which no shader file ends in. -/
def Path.Foreign (path : String) : Prop := ∃ c, EndsIn path [c] ∧ c ≠ '/' ∧ c ≠ 'r'

namespace Disk

/-- The same shader files with the same bytes. -/
def SameShaderFiles (disk disk' : Disk) : Prop :=
  ∀ names, ShaderSources.IsShaderFile names → ∀ bytes,
    disk.get? names = some (.file bytes) ↔ disk'.get? names = some (.file bytes)

namespace SameShaderFiles

theorem refl (disk : Disk) : SameShaderFiles disk disk := fun _ _ _ => Iff.rfl

theorem symm {disk disk' : Disk} (same : SameShaderFiles disk disk') :
    SameShaderFiles disk' disk := fun names is bytes => (same names is bytes).symm

theorem trans {disk disk' disk'' : Disk} (left : SameShaderFiles disk disk')
    (right : SameShaderFiles disk' disk'') : SameShaderFiles disk disk'' :=
  fun names is bytes => (left names is bytes).trans (right names is bytes)

theorem insert {names : List String} (other : ¬ ShaderSources.IsShaderFile names)
    (disk : Disk) (node : Node) : SameShaderFiles disk (disk.insert names node) := by
  intro names' is bytes
  have apart : names' ≠ names := fun same => other (same ▸ is)
  rw [OrderedMap.get?_insert, if_neg apart]

theorem insertDirectory {disk : Disk} {names : List String} (nothing : disk.get? names = none) :
    SameShaderFiles disk (disk.insert names .directory) := by
  intro names' _ bytes
  rw [OrderedMap.get?_insert]
  split
  · next same =>
    subst same
    rw [nothing]
    exact ⟨fun h => (by cases h), fun h => (by cases h)⟩
  · rfl

theorem erase {names : List String} (other : ¬ ShaderSources.IsShaderFile names)
    (disk : Disk) : SameShaderFiles disk (disk.erase names) := by
  intro names' is bytes
  have apart : names' ≠ names := fun same => other (same ▸ is)
  rw [OrderedMap.get?_erase, if_neg apart]

end SameShaderFiles

theorem getLast?_of_suffix {tail cs : List Char} {c : Char} (suffix : tail <:+ cs)
    (last : tail.getLast? = some c) : cs.getLast? = some c := by
  obtain ⟨front, rfl⟩ := suffix
  rw [List.getLast?_append, last]
  rfl

/-- What a foreign path leads to is no shader file. -/
theorem Reached.not_isShaderFile {disk : Disk} {path : String} {place : Place}
    (reached : Reached disk [] (Path.steps path) place) (foreign : Path.Foreign path)
    {names : List String} (at_ : place = .absent names ∨ ∃ bytes, place = .file names bytes) :
    ¬ ShaderSources.IsShaderFile names := by
  rintro ⟨last, isLast, shader⟩
  obtain ⟨c, ends, notSlash, notR⟩ := foreign
  obtain ⟨step, isStep, endsStep⟩ := ends.getLast?_steps
    (fun mem => notSlash (List.mem_singleton.1 mem).symm) (List.cons_ne_nil c [])
  have same : some step = some last := by
    cases reached with
    | directory => rcases at_ with h | ⟨_, h⟩ <;> cases h
    | file stepLast name _ =>
      rcases at_ with h | ⟨_, h⟩
      · cases h
      · cases h; rw [← isStep, stepLast, ← name, isLast]
    | absent stepLast name _ =>
      rcases at_ with h | ⟨_, h⟩
      · cases h; rw [← isStep, stepLast, ← name, isLast]
      · cases h
  cases same
  have isR : last.toList.getLast? = some 'r' := getLast?_of_suffix shader rfl
  have isC : last.toList.getLast? = some c := getLast?_of_suffix endsStep rfl
  exact notR (Option.some.inj (isC.symm.trans isR))

theorem locate_foreign {disk : Disk} {path : String} {place : Place}
    (foreign : Path.Foreign path) (located : disk.locate path = .ok place) :
    Reached disk [] (Path.steps path) place := by
  obtain ⟨c, ends, notSlash, _⟩ := foreign
  exact locate_reached ends (fun mem => notSlash (List.mem_singleton.1 mem).symm)
    (List.cons_ne_nil c []) located

theorem remove_sameShaderFiles {disk removed : Disk} {path : String}
    (foreign : Path.Foreign path) (remove : disk.remove path = .ok removed) :
    SameShaderFiles disk removed := by
  obtain ⟨place, located, removes⟩ := except_bind_eq_ok.1 remove
  have reached := locate_foreign foreign located
  cases place with
  | directory _ => cases removes
  | absent _ => cases removes
  | file names bytes =>
    cases removes
    exact .erase (reached.not_isShaderFile foreign (.inr ⟨bytes, rfl⟩)) disk

theorem write_sameShaderFiles {disk written : Disk} {path : String} {bytes : List UInt8}
    (foreign : Path.Foreign path) (write : disk.write path bytes = .ok written) :
    SameShaderFiles disk written := by
  obtain ⟨place, located, writes⟩ := except_bind_eq_ok.1 write
  have reached : Reached disk [] (Path.steps path) place := by
    obtain ⟨c, ends, notSlash, _⟩ := foreign
    have noSlash : '/' ∉ [c] := fun mem => notSlash (List.mem_singleton.1 mem).symm
    unfold locateForWriting at located
    rw [if_neg (by rw [ends.not_endsWithSlash noSlash (List.cons_ne_nil c [])]; exact nofun)]
      at located
    exact locate_reached ends noSlash (List.cons_ne_nil c []) located
  cases place with
  | directory _ => cases writes
  | absent names =>
    cases writes
    exact .insert (reached.not_isShaderFile foreign (.inl rfl)) disk _
  | file names old =>
    cases writes
    exact .insert (reached.not_isShaderFile foreign (.inr ⟨old, rfl⟩)) disk _

theorem makeDirectory_sameShaderFiles {disk made : Disk} {steps : List String}
    (make : disk.makeDirectory steps = .ok made) : SameShaderFiles disk made := by
  obtain ⟨place, walk, makes⟩ := except_bind_eq_ok.1 make
  cases place with
  | directory _ => cases makes; exact .refl disk
  | file _ _ => cases makes
  | absent names =>
    cases makes
    cases follow_reached walk with
    | absent _ _ nothing => exact .insertDirectory nothing

theorem makeDirectoriesAbove_sameShaderFiles {disk made : Disk} {steps : List String}
    (make : disk.makeDirectoriesAbove steps = .ok made) : SameShaderFiles disk made := by
  induction steps generalizing made with
  | nil => cases make; exact .refl disk
  | cons last above ih =>
    rw [makeDirectoriesAbove] at make
    split at make
    · next direct => cases make; exact makeDirectory_sameShaderFiles direct
    · obtain ⟨parent, makeParent, makeLast⟩ := except_bind_eq_ok.1 make
      exact (ih makeParent).trans (makeDirectory_sameShaderFiles makeLast)
    · cases make

theorem makeDirectories_sameShaderFiles {disk made : Disk} {path : String}
    (make : disk.makeDirectories path = .ok made) : SameShaderFiles disk made := by
  obtain ⟨_, _, makes⟩ := except_bind_eq_ok.1 make
  exact makeDirectoriesAbove_sameShaderFiles makes

/-- Writing a file that is no shader file, with the directories above it, leaves the shader
files as they are. -/
theorem writeBelow_sameShaderFiles {path : String} (foreign : Path.Foreign path) (disk : Disk)
    (bytes : List UInt8) : SameShaderFiles disk (disk.writeBelow path bytes).1 := by
  unfold writeBelow
  split
  · split
    · next write => exact write_sameShaderFiles foreign write
    · exact .refl disk
  · split
    · exact .refl disk
    · next make =>
      have made := makeDirectories_sameShaderFiles make
      split
      · next write => exact made.trans (write_sameShaderFiles foreign write)
      · exact made

/-- A shader path that is read leads to a shader file, which holds the text. -/
theorem exists_shaderFile {disk : Disk} {path text : String}
    (ends : Path.EndsIn path ShaderSources.fileTail) (read : disk.readText path = .ok text) :
    ∃ bytes, disk.locate path = .ok (.file (resolve [] (Path.steps path)) bytes) ∧
      disk.get? (resolve [] (Path.steps path)) = some (.file bytes) ∧
      ShaderSources.IsShaderFile (resolve [] (Path.steps path)) ∧
      Text.ofUtf8? bytes = some text := by
  have noSlash : '/' ∉ ShaderSources.fileTail := by decide
  have nonempty : ShaderSources.fileTail ≠ [] := by decide
  obtain ⟨bytes, read, decode⟩ := except_bind_eq_ok.1 read
  obtain ⟨place, located, isFile⟩ := except_bind_eq_ok.1 read
  have decoded : Text.ofUtf8? bytes = some text := by
    cases decoded : Text.ofUtf8? bytes with
    | none => rw [decoded] at decode; cases decode
    | some _ => rw [decoded] at decode; cases decode; rfl
  cases locate_reached ends noSlash nonempty located with
  | directory _ => cases isFile
  | absent _ _ _ => cases isFile
  | file stepLast name there =>
    cases isFile
    obtain ⟨step, isStep, suffix⟩ := ends.getLast?_steps noSlash nonempty
    exact ⟨bytes, located, there, ⟨step, by rw [name, ← stepLast, isStep], suffix⟩, decoded⟩

/-- Two disks with the same shader files do not hold two texts for one shader path. -/
theorem SameShaderFiles.readText_unique {disk disk' : Disk} (same : SameShaderFiles disk disk')
    {path text text' : String} (ends : Path.EndsIn path ShaderSources.fileTail)
    (read : disk.readText path = .ok text) (read' : disk'.readText path = .ok text') :
    text = text' := by
  obtain ⟨bytes, -, there, shader, decoded⟩ := exists_shaderFile ends read
  obtain ⟨bytes', -, there', -, decoded'⟩ := exists_shaderFile ends read'
  rw [same _ shader, there'] at there
  cases there
  exact Option.some.inj (decoded.symm.trans decoded')

end Disk

namespace ShaderSources

/-- What one set of sources says about a name, where it says something at all, depends on the
shader files alone. -/
theorem read_unique {sources : ShaderSources} {disk disk' : Disk}
    (same : disk.SameShaderFiles disk') {name text text' : String}
    (read : sources.read disk name = .ok text) (read' : sources.read disk' name = .ok text') :
    text = text' := by
  unfold ShaderSources.read at read read'
  cases registered : sources.registered.get? name with
  | some known => rw [registered] at read read'; cases read; cases read'; rfl
  | none =>
    cases path? : sources.path? name with
    | none => rw [registered, path?] at read; cases read
    | some path =>
      rw [registered, path?] at read read'
      dsimp only at read read'
      split at read
      · next readText =>
        split at read'
        · next readText' =>
          cases read; cases read'
          exact same.readText_unique (path?_endsIn path?) readText readText'
        · cases read'
        · cases read'
      · cases read
      · cases read

end ShaderSources

end SurfaceShading
