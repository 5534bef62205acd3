/-
  Listing shaders and reading them. The names that are listed are those of registered texts and
  those of files with the extension of shaders, in any case; a name is read from the file with the
  extension in lower case. So a listed name can be read exactly if it is registered or the
  directory has a file with the name and that extension (`ShaderSources.LeadsBack`), and a
  registration of all shaders that does not find one stops at a name that does not lead back.

  Registration removes generated sources, which are no shader files, and no directory, so what
  could be read before it can be read while it goes on (`Disk.KeepsReadable`).
-/
import SurfaceShading.Proofs.Registration
import SurfaceShading.Proofs.Walk
import Mathlib.Data.String.Basic

namespace SurfaceShading

/-! ## Names of files -/

namespace Path

/-- A file name that is cut is put together of the parts. -/
theorem eq_of_splitName {name stem ext : String} (cut : splitName name = (stem, some ext)) :
    name = stem ++ "." ++ ext := by
  unfold splitName at cut
  extract_lets cs tail front at cut
  split at cut
  · cases cut
  · next other =>
    obtain ⟨shorter, -⟩ := not_or.1 other
    have parts : cs = (cs.reverse.dropWhile (· ≠ '.')).reverse ++ tail := by
      rw [← List.reverse_append, List.takeWhile_append_dropWhile, List.reverse_reverse]
    cases rest : cs.reverse.dropWhile (· ≠ '.') with
    | nil =>
      rw [rest, List.reverse_nil, List.nil_append] at parts
      exact absurd (congrArg List.length parts) shorter
    | cons c before =>
      have dot : c = '.' := by
        have stops := List.head?_dropWhile_not (· ≠ '.') cs.reverse
        rw [rest] at stops
        simpa using stops
      have whole : cs = before.reverse ++ '.' :: tail := by
        rw [rest, List.reverse_cons, List.append_assoc, dot] at parts
        exact parts
      have isFront : front = before.reverse := by
        have length : cs.length - tail.length - 1 = before.reverse.length := by
          rw [whole, List.length_append, List.length_cons]
          omega
        show cs.take (cs.length - tail.length - 1) = _
        rw [length, whole, List.take_left]
      cases cut
      rw [isFront, ← String.toList_inj, String.toList_append, String.toList_append,
        String.toList_ofList, String.toList_ofList, String.toList_ofList, List.append_assoc]
      exact whole

end Path

namespace Text

theorem utf8Size_toLower (c : Char) : c.toLower.utf8Size = c.utf8Size := by
  unfold Char.toLower
  split
  · next upper =>
    have high : c.val.toNat ≤ 90 := UInt32.le_iff_toNat_le.1 upper.2
    have small : c.val ≤ 127 := UInt32.le_iff_toNat_le.2 (Nat.le_trans high (by decide))
    have small' : c.val + ('a'.val - 'A'.val) ≤ 127 := by
      refine UInt32.le_iff_toNat_le.2 ?_
      rw [UInt32.toNat_add]
      show (c.val.toNat + 32) % 2 ^ 32 ≤ 127
      omega
    rw [Char.utf8Size_eq_one_iff.2 small, Char.utf8Size_eq_one_iff.2 small']
  · rfl

/-- Letters in lower case take as many bytes as in upper case. -/
theorem utf8Len_map_toLower (cs : List Char) :
    String.utf8Len (cs.map Char.toLower) = String.utf8Len cs := by
  induction cs with
  | nil => rfl
  | cons c cs ih =>
    rw [List.map_cons, String.utf8Len_cons, String.utf8Len_cons, ih, utf8Size_toLower]

end Text

namespace ShaderSources

/-- A file that is listed is the name and an extension that is that of shaders but for the case
of its letters. -/
theorem exists_extension {file name : String} (listed : shaderName? file = some name) :
    ∃ ext : String, file = name ++ "." ++ ext ∧ ext.utf8ByteSize = extension.utf8ByteSize := by
  unfold shaderName? at listed
  split at listed
  · next stem ext cut =>
    split at listed
    · next same =>
      cases listed
      refine ⟨ext, Path.eq_of_splitName cut, ?_⟩
      rw [← same, String.utf8ByteSize_ofList, Text.utf8Len_map_toLower,
        ← String.utf8ByteSize_ofList, String.ofList_toList]
    · cases listed
  · cases listed

/-- The name of the file that a shader is read from. -/
def fileName (name : String) : String := name ++ "." ++ extension

theorem fileName_chars {name : String} {c : Char} (mem : c ∈ (fileName name).toList) :
    c ∈ name.toList ∨ c ∈ fileTail := by
  rw [fileName, String.append_assoc, String.toList_append] at mem
  exact List.mem_append.1 mem

theorem path?_of_directory {sources : ShaderSources} {dir : String}
    (directory : sources.directory = some dir) (name : String) :
    sources.path? name = some (Path.join dir (fileName name)) := by
  rw [path?, directory]
  rfl

/-- A shader is read from a file whose name can stand where that of the listed file stands, and
is as long. -/
structure Matches (file name : String) : Prop where
  size : (fileName name).utf8ByteSize = file.utf8ByteSize
  chars : ∀ c ∈ (fileName name).toList, c ∈ file.toList ∨ c ∈ fileTail

theorem matches_of_listed {file name : String} (listed : shaderName? file = some name) :
    Matches file name := by
  obtain ⟨ext, rfl, size⟩ := exists_extension listed
  refine ⟨?_, fun c mem => (fileName_chars mem).imp_left fun inName => ?_⟩
  · rw [fileName, String.utf8ByteSize_append, String.utf8ByteSize_append (t := ext), size]
  · rw [String.append_assoc, String.toList_append]
    exact List.mem_append_left _ inName

theorem fileName_size (name : String) : 7 ≤ (fileName name).utf8ByteSize := by
  rw [fileName, String.append_assoc, String.utf8ByteSize_append]
  exact Nat.le_add_left _ _

theorem Matches.isName {file name : String} (corresponds : Matches file name)
    (is : Path.IsName file) : Path.IsName (fileName name) where
  nonempty := by
    rw [fileName, String.append_assoc, String.toList_append]
    exact List.append_ne_nil_of_right_ne_nil _ (by decide)
  noSlash mem := (corresponds.chars _ mem).elim is.noSlash (by decide)

end ShaderSources

/-! ## The file of a listed shader -/

namespace Disk

theorem exists_locate_of_readText {disk : Disk} {path text : String}
    (read : disk.readText path = .ok text) : ∃ place, disk.locate path = .ok place := by
  obtain ⟨bytes, read, -⟩ := except_bind_eq_ok.1 read
  obtain ⟨place, located, -⟩ := except_bind_eq_ok.1 read
  exact ⟨place, located⟩

theorem checked_of_locate {disk : Disk} {path : String} {place : Place}
    (located : disk.locate path = .ok place) : checkPath path = .ok () := by
  obtain ⟨steps, below, -⟩ := except_bind_eq_ok.1 located
  exact (stepsBelow_eq_ok.1 below).1

/-- A name that is longer than one or two dots is looked up as it is. -/
theorem follow_name (disk : Disk) (names : List String) {name : String}
    (long : 7 ≤ name.utf8ByteSize) :
    disk.follow names [name] =
      if maxNameBytes < name.utf8ByteSize then .error .nameTooLong
      else match disk.get? (names ++ [name]) with
        | some .directory => .ok (.directory (names ++ [name]))
        | some (.file bytes) => .ok (.file (names ++ [name]) bytes)
        | none => .ok (.absent (names ++ [name])) := by
  have notHere : name ≠ "." := fun dot => absurd (dot ▸ long) (by decide)
  have notUp : name ≠ ".." := fun dots => absurd (dots ▸ long) (by decide)
  rw [follow, if_neg notHere, if_neg notUp]
  rfl

end Disk

namespace ShaderSources

/-- If one file of a directory can be read, a shader whose own file is not there is not found. -/
theorem Matches.readText_absent {disk : Disk} {path file name text : String} {names : List String}
    (corresponds : Matches file name) (leads : disk.LeadsTo path names) (is : Path.IsName file)
    (read : disk.readText (Path.join path file) = .ok text)
    (nothing : disk.get? (names ++ [fileName name]) = none) :
    disk.readText (Path.join path (fileName name)) = .error .notFound := by
  obtain ⟨place, located⟩ := Disk.exists_locate_of_readText read
  have checked := Disk.checked_of_locate located
  have is' := corresponds.isName is
  have long := fileName_size name
  rw [Disk.locate_join leads is checked,
    Disk.follow_name disk names (corresponds.size ▸ long)] at located
  have checked' : Disk.checkPath (Path.join path (fileName name)) = .ok () := by
    obtain ⟨front, joined⟩ := Path.exists_join path
    rw [joined _ is.relative, Disk.checkPath_eq_ok, String.toList_append, List.mem_append,
      String.utf8ByteSize_append] at checked
    rw [joined _ is'.relative, Disk.checkPath_eq_ok, String.toList_append, List.mem_append,
      String.utf8ByteSize_append, corresponds.size]
    refine ⟨fun nul => checked.1 (nul.imp_right fun mem => ?_), checked.2⟩
    exact (corresponds.chars _ mem).resolve_right (by decide)
  have absent : disk.locate (Path.join path (fileName name)) =
      .ok (.absent (names ++ [fileName name])) := by
    rw [Disk.locate_join leads is' checked', Disk.follow_name disk names long, corresponds.size,
      nothing]
    split at located
    · cases located
    · next fits => rw [if_neg fits]
  rw [Disk.readText, Disk.read, absent]
  rfl

/-! ## Listing and reading -/

/-- The files in the directory; none if there is no such directory. -/
def entries (sources : ShaderSources) (disk : Disk) : List String :=
  match sources.directory with
  | none => []
  | some dir => (disk.list dir).toOption.getD []

theorem listed_eq (sources : ShaderSources) (disk : Disk) :
    sources.listed disk = (sources.entries disk).filterMap shaderName? := by
  unfold listed entries
  cases sources.directory with
  | none => rfl
  | some dir => cases lists : disk.list dir <;> simp only [lists] <;> rfl

theorem mem_entries {sources : ShaderSources} {disk : Disk} {file : String} :
    file ∈ sources.entries disk ↔
      ∃ dir files, sources.directory = some dir ∧ disk.list dir = .ok files ∧ file ∈ files := by
  unfold entries
  constructor
  · intro mem
    split at mem
    · cases mem
    · next dir directory =>
      cases lists : disk.list dir with
      | error e =>
        rw [lists] at mem
        cases mem
      | ok files =>
        rw [lists] at mem
        exact ⟨dir, files, directory, lists, mem⟩
  · rintro ⟨dir, files, directory, lists, mem⟩
    simp only [directory, lists]
    exact mem

/-- The texts are registered in the order of their names, and every file of the directory can be
read as a text. -/
structure Orderly (sources : ShaderSources) (disk : Disk) : Prop where
  ascending : sources.registered.Sorted
  isName : ∀ file ∈ sources.entries disk, Path.IsName file
  readable : ∀ dir, sources.directory = some dir → ∀ file ∈ sources.entries disk,
    ∃ text, disk.readText (Path.join dir file) = .ok text

/-- A name from which the way leads back to a text: it is registered, or the directory has a file
with the name and the extension in lower case. -/
def LeadsBack (sources : ShaderSources) (disk : Disk) (name : String) : Prop :=
  (∃ text, sources.registered.get? name = some text) ∨ fileName name ∈ sources.entries disk

variable {sources : ShaderSources} {disk : Disk} {name : String}

/-- The names that are listed are those of registered texts and of files. -/
theorem mem_names_iff : name ∈ sources.names disk ↔
    (∃ text, sources.registered.get? name = some text) ∨
      ∃ file ∈ sources.entries disk, shaderName? file = some name := by
  unfold names
  rw [OrderedMap.mem_keys_insertAll, OrderedMap.mem_keys_iff, listed_eq, List.mem_filterMap,
    OrderedMap.get?_mapValues]
  refine or_congr ⟨?_, ?_⟩ Iff.rfl
  · rintro ⟨_, is⟩
    obtain ⟨text, is, -⟩ := Option.map_eq_some_iff.1 is
    exact ⟨text, is⟩
  · rintro ⟨text, is⟩
    exact ⟨(), by rw [is]; rfl⟩

theorem pairwise_names (orderly : sources.Orderly disk) :
    (sources.names disk).Pairwise (· < ·) :=
  ((orderly.ascending.mapValues _).insertAll _ ()).pairwise_keys

theorem read_registered {text : String} (is : sources.registered.get? name = some text)
    (disk : Disk) : sources.read disk name = .ok text := by
  rw [read, is]

/-- A name that is not registered is read from the file with the extension in lower case, if the
directory has it. -/
theorem read_file (orderly : sources.Orderly disk) (unknown : sources.registered.get? name = none)
    (there : fileName name ∈ sources.entries disk) :
    ∃ path text, sources.path? name = some path ∧ disk.readText path = .ok text ∧
      sources.read disk name = .ok text := by
  obtain ⟨dir, -, directory, -⟩ := mem_entries.1 there
  obtain ⟨text, readText⟩ := orderly.readable dir directory _ there
  have path? := path?_of_directory directory name
  refine ⟨_, text, path?, readText, ?_⟩
  rw [read, unknown, path?]
  simp only [readText]

/-- A listed name that does not lead back is not found. -/
theorem read_not_found (orderly : sources.Orderly disk) (mem : name ∈ sources.names disk)
    (leads : ¬ sources.LeadsBack disk name) :
    sources.read disk name = .error (.notFound name) := by
  obtain ⟨unknown, missing⟩ := not_or.1 leads
  obtain ⟨file, there, listed⟩ := (mem_names_iff.1 mem).resolve_left unknown
  have unknown : sources.registered.get? name = none := by
    cases is : sources.registered.get? name with
    | none => rfl
    | some text => exact absurd ⟨text, is⟩ unknown
  obtain ⟨dir, files, directory, lists, -⟩ := mem_entries.1 there
  obtain ⟨names, leads, mem_iff⟩ := Disk.list_eq_ok lists
  have nothing : disk.get? (names ++ [fileName name]) = none := by
    cases found : disk.get? (names ++ [fileName name]) with
    | none => rfl
    | some node =>
      have there := mem_entries.2 ⟨dir, files, directory, lists, (mem_iff _).2 ⟨node, found⟩⟩
      exact absurd there missing
  obtain ⟨text, readText⟩ := orderly.readable dir directory file there
  have absent := (matches_of_listed listed).readText_absent leads (orderly.isName file there)
    readText nothing
  rw [read, unknown, path?_of_directory directory name]
  simp only [absent]

end ShaderSources

/-! ## Reading while shaders are registered -/

namespace Disk

/-- Shader files are the same, and what was a directory is one. -/
structure KeepsReadable (disk disk' : Disk) : Prop where
  directories : ∀ names, disk.get? names = some .directory → disk'.get? names = some .directory
  files : SameShaderFiles disk disk'

theorem KeepsReadable.trans {disk disk' disk'' : Disk} (first : KeepsReadable disk disk')
    (second : KeepsReadable disk' disk'') : KeepsReadable disk disk'' where
  directories names is := second.directories names (first.directories names is)
  files := first.files.trans second.files

theorem remove_keepsReadable {disk removed : Disk} {path : String}
    (foreign : Path.Foreign path) (remove : disk.remove path = .ok removed) :
    KeepsReadable disk removed where
  directories names is := by
    obtain ⟨place, located, removes⟩ := except_bind_eq_ok.1 remove
    cases locate_foreign foreign located with
    | directory _ => cases removes
    | absent _ _ _ => cases removes
    | file _ _ there =>
      cases removes
      rw [OrderedMap.get?_erase, if_neg]
      · exact is
      · rintro rfl
        cases is.symm.trans there
  files := remove_sameShaderFiles foreign remove

/-- A walk to a file goes the same way on a disk that has the file and all directories. -/
theorem KeepsReadable.follow {disk disk' : Disk} (keeps : KeepsReadable disk disk')
    {start steps names : List String} {bytes : List UInt8}
    (walk : disk.follow start steps = .ok (.file names bytes))
    (there : disk'.get? names = some (.file bytes)) :
    disk'.follow start steps = .ok (.file names bytes) := by
  induction steps generalizing start with
  | nil => cases walk
  | cons step rest ih =>
    rw [follow_cons_eq_ok]
    cases follow_cons_eq_ok.1 walk with
    | stay here walk => exact .stay here (ih walk)
    | up notHere up walk => exact .up notHere up (ih walk)
    | enter notHere notUp fits node walk =>
      exact .enter notHere notUp fits (keeps.directories _ node) (ih walk)
    | file notHere notUp fits _ last is =>
      cases is
      exact .file notHere notUp fits there last rfl
    | absent _ _ _ _ _ is => cases is

/-- What could be read at the path of a shader file can be read. -/
theorem KeepsReadable.readText {disk disk' : Disk} (keeps : KeepsReadable disk disk')
    {path text : String} (ends : Path.EndsIn path ShaderSources.fileTail)
    (read : disk.readText path = .ok text) : disk'.readText path = .ok text := by
  obtain ⟨bytes, located, there, shader, decoded⟩ := exists_shaderFile ends read
  obtain ⟨steps, below, walk⟩ := except_bind_eq_ok.1 located
  have located' : disk'.locate path = .ok (.file (resolve [] (Path.steps path)) bytes) := by
    rw [locate, below]
    exact keeps.follow walk ((keeps.files _ shader bytes).1 there)
  exact except_bind_eq_ok.2 ⟨bytes, except_bind_eq_ok.2 ⟨_, located', rfl⟩, by rw [decoded]⟩

end Disk

namespace Host

/-- What could be read of shaders before can be read after. -/
def KeepsReadable (h h' : Host) : Prop := h.disk.KeepsReadable h'.disk

instance : Std.Refl KeepsReadable := ⟨fun h => ⟨fun _ => id, .refl h.disk⟩⟩

instance : Trans KeepsReadable KeepsReadable KeepsReadable := ⟨Disk.KeepsReadable.trans⟩

theorem keepsReadable_registration : AdmitsRegistration KeepsReadable where
  told h _ := Std.Refl.refl (r := KeepsReadable) h
  removed _ _ _ foreign removed := Disk.remove_keepsReadable foreign removed

end Host

namespace ShaderSources

theorem read_keeps {sources : ShaderSources} {disk disk' : Disk} {name text : String}
    (keeps : disk.KeepsReadable disk') (is : sources.read disk name = .ok text) :
    sources.read disk' name = .ok text := by
  unfold read at is ⊢
  cases registered : sources.registered.get? name with
  | some known =>
    rw [registered] at is
    exact is
  | none =>
    cases path? : sources.path? name with
    | none =>
      rw [registered, path?] at is
      cases is
    | some path =>
      rw [registered, path?] at is
      dsimp only at is ⊢
      split at is
      · next readText =>
        cases is
        rw [keeps.readText (path?_endsIn path?) readText]
      · cases is
      · cases is

/-- Who is not found is who was asked for. -/
theorem eq_of_not_found {sources : ShaderSources} {disk : Disk} {name other : String}
    (is : sources.read disk name = .error (.notFound other)) : other = name := by
  unfold read at is
  split at is
  · cases is
  · split at is
    · cases is
      rfl
    · split at is
      · cases is
      · cases is
        rfl
      · cases is

end ShaderSources

namespace Session

variable {s : Session}

/-- A registration that does not find a shader does so at one of its names, on a disk on which
all that could be read before can be read. -/
theorem registerShaders_not_found (sound : s.Sound) (names : List String) {name : String}
    (failed : (s.perform (.registerShaders names)).1 = .error (.shaderNotFound name)) :
    name ∈ names ∧ ∃ disk, s.host.disk.KeepsReadable disk ∧
      s.library.sources.read disk name = .error (.notFound name) := by
  obtain ⟨before, bad, after, rfl, ok, refuses⟩ := exists_refused sound names failed
  obtain ⟨sources, keeps⟩ := (s.ends_registerShaders before fun _ l' h' =>
      l'.sources = s.library.sources ∧ s.host.KeepsReadable h').1
    (((Library.registerShaders_ends before s.library s.host sound.idle).and
      (Host.keepsReadable_registration.registerShaders before s.library s.host)).mono
        fun _ _ _ ends => ⟨ends.1.1.sources, ends.2⟩)
  generalize is : Error.shaderNotFound name = e at refuses
  cases refuses with
  | malformed _ _ _ => cases is
  | tooLarge _ _ _ => cases is
  | @unread e _ unread =>
    rw [sources] at unread
    cases e with
    | file _ => cases is
    | notFound other =>
      cases is
      cases ShaderSources.eq_of_not_found unread
      exact ⟨List.mem_append_right _ List.mem_cons_self, _, keeps, unread⟩

/-- All known shaders are registered in the order of their names. -/
theorem perform_registerAll (s : Session) : (s.perform .registerAll).1 =
    (s.perform (.registerShaders (s.library.sources.names s.host.disk))).1 := rfl

end Session

namespace ShaderSources

variable {sources : ShaderSources} {disk : Disk}

/-- **When a listed shader can be read.** The names that are listed ascend, and they are those of
the registered texts and of the files with the extension of shaders in any case. One of them is
read exactly if it leads back: a registered name to its text, another one to the text of the file
of that name with the extension in lower case. If it does not lead back, it is not found. So when
a registration of all shaders does not find one, that one is listed and does not lead back. -/
theorem listed_read_iff (orderly : sources.Orderly disk) :
    (sources.names disk).Pairwise (· < ·) ∧
    (∀ name, name ∈ sources.names disk ↔
      (∃ text, sources.registered.get? name = some text) ∨
        ∃ file ∈ sources.entries disk, shaderName? file = some name) ∧
    (∀ name ∈ sources.names disk,
      ((∃ text, sources.read disk name = .ok text) ↔ sources.LeadsBack disk name) ∧
      (∀ text, sources.registered.get? name = some text → sources.read disk name = .ok text) ∧
      (sources.registered.get? name = none → sources.LeadsBack disk name →
        ∃ path text, sources.path? name = some path ∧ disk.readText path = .ok text ∧
          sources.read disk name = .ok text) ∧
      (¬ sources.LeadsBack disk name → sources.read disk name = .error (.notFound name))) ∧
    ∀ (config : Config) (texts : OrderedMap String String) (loader : Loader) (start : Disk)
        (ops : List Operation),
      let s := (Session.start config texts loader start).run ops
      s.library.sources = sources → s.host.disk = disk → ∀ name,
        (s.perform .registerAll).1 = .error (.shaderNotFound name) →
          name ∈ sources.names disk ∧ ¬ sources.LeadsBack disk name := by
  have file {name : String} (unknown : sources.registered.get? name = none)
      (leads : sources.LeadsBack disk name) :
      ∃ path text, sources.path? name = some path ∧ disk.readText path = .ok text ∧
        sources.read disk name = .ok text := by
    refine read_file orderly unknown (leads.resolve_left ?_)
    rintro ⟨text, is⟩
    cases unknown.symm.trans is
  have leadsBack {name : String} (leads : sources.LeadsBack disk name) :
      ∃ text, sources.read disk name = .ok text := by
    cases is : sources.registered.get? name with
    | some text => exact ⟨text, read_registered is disk⟩
    | none =>
      obtain ⟨_, text, -, -, read⟩ := file is leads
      exact ⟨text, read⟩
  refine ⟨pairwise_names orderly, fun name => mem_names_iff, fun name mem => ⟨⟨?_, leadsBack⟩,
    fun text is => read_registered is disk, file, read_not_found orderly mem⟩, ?_⟩
  · rintro ⟨text, read⟩
    by_contra lost
    cases read.symm.trans (read_not_found orderly mem lost)
  · rintro config texts loader start ops s rfl rfl name failed
    have sound : s.Sound := Session.run_sound (Session.start_sound config texts loader start) ops
    rw [s.perform_registerAll] at failed
    obtain ⟨mem, later, keeps, missing⟩ := Session.registerShaders_not_found sound _ failed
    refine ⟨mem, fun leads => ?_⟩
    obtain ⟨text, read⟩ := leadsBack leads
    cases missing.symm.trans (read_keeps keeps read)

/-- A registered text beside a directory. -/
def shelf : ShaderSources := ⟨OrderedMap.empty.insert "Toon" "t", some "sh"⟩

/-- A disk with one file in that directory. -/
def shelfDisk (file : String) : Disk := .ofFiles [] [("sh/" ++ file, [120])]

theorem shelf_orderly {file : String} (lists : shelf.entries (shelfDisk file) = [file])
    (is : Path.IsName file) (read : (shelfDisk file).readText (Path.join "sh" file) = .ok "x") :
    shelf.Orderly (shelfDisk file) where
  ascending := OrderedMap.sorted_empty.insert "Toon" "t"
  isName other mem := by
    rw [lists] at mem
    rwa [List.mem_singleton.1 mem]
  readable dir directory other mem := by
    cases directory
    rw [lists] at mem
    rw [List.mem_singleton.1 mem]
    exact ⟨"x", read⟩

theorem shelf_read :
    shelf.Orderly (shelfDisk "Rock.shader") ∧
    shelf.names (shelfDisk "Rock.shader") = ["Rock", "Toon"] ∧
    ((∃ text, shelf.read (shelfDisk "Rock.shader") "Rock" = .ok text) ↔
      shelf.LeadsBack (shelfDisk "Rock.shader") "Rock") ∧
    shelf.LeadsBack (shelfDisk "Rock.shader") "Rock" := by
  have lists : shelf.entries (shelfDisk "Rock.shader") = ["Rock.shader"] := by decide +kernel
  have names : shelf.names (shelfDisk "Rock.shader") = ["Rock", "Toon"] := by decide +kernel
  have orderly := shelf_orderly lists ⟨by decide, by decide⟩ (by decide +kernel)
  have leads : shelf.LeadsBack (shelfDisk "Rock.shader") "Rock" := .inr (by rw [lists]; decide)
  exact ⟨orderly, names, ((listed_read_iff orderly).2.2.1 "Rock" (by rw [names]; decide)).1, leads⟩

/-- A file with the extension in upper case is listed, and its shader is not found. -/
theorem upper_case_lost :
    shelf.Orderly (shelfDisk "Rock.SHADER") ∧
    shelf.names (shelfDisk "Rock.SHADER") = ["Rock", "Toon"] ∧
    shelf.read (shelfDisk "Rock.SHADER") "Rock" = .error (.notFound "Rock") ∧
    ((Session.start { Config.standard with shaderDirectory := some "sh" } shelf.registered
      (.stub [] []) (shelfDisk "Rock.SHADER")).perform .registerAll).1 =
        .error (.shaderNotFound "Rock") := by
  have lists : shelf.entries (shelfDisk "Rock.SHADER") = ["Rock.SHADER"] := by decide +kernel
  refine ⟨shelf_orderly lists ⟨by decide, by decide⟩ (by decide +kernel), by decide +kernel,
    by decide +kernel, ?_⟩
  rfl

end ShaderSources

end SurfaceShading
