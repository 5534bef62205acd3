/-
  The header of a material file against the file. A load of a material reads the header first,
  and the whole file only if it has no material of that name. Both are read from an object or
  from an array of their fields in order. In an object the header passes over what it does not
  know; but an array has to be of its two fields alone, while that of a file may go on with the
  values and the paths.

  Main statement: a file that is read has a header iff it is not written as an array of more
  than two items, and then it is the header with the name and the shader of the file; a load of
  the material comes to the same as taking in the file that is read, or else is turned down
  (`Session.header_agrees_iff`). Such an array is in `longDisk`.
-/
import SurfaceShading.Proofs.Library.Continuity
import SurfaceShading.Proofs.Orphans

namespace SurfaceShading

/-- An array of more than two items. -/
inductive Json.LongArray : Json → Prop where
  | mk (first second third : Json) (rest : List Json) :
      LongArray (.array (first :: second :: third :: rest))

/-- A file of the disk that writes an array of more than two items. -/
def Disk.WritesLongArray (disk : Disk) (path : String) : Prop :=
  ∃ text v, disk.readText path = .ok text ∧ Json.parse? text = some v ∧ v.LongArray

/-! ## One value read in two ways -/

theorem MaterialFile.ofFields?_shader {name shader : Json} {parameters textures : List Json}
    {file : MaterialFile} (read : ofFields? name shader parameters textures = some file) :
    shader.text? = some file.shader := by
  unfold ofFields? at read
  simp only [Option.bind_eq_bind, Option.bind_eq_some_iff] at read
  obtain ⟨_, _, text, is, _, _, _, _, made⟩ := read
  cases made
  exact is

namespace MaterialHeader

variable {disk : Disk} {path : String} {file : MaterialFile}

theorem ofJson?_longArray {v : Json} (long : v.LongArray) : ofJson? v = none := by
  cases long
  rfl

/-- What reads as a file reads as its header, unless it is a long array. -/
theorem ofJson?_of_file {v : Json} (read : MaterialFile.ofJson? v = some file)
    (short : ¬v.LongArray) : ofJson? v = some ⟨file.name, file.shader⟩ := by
  have fields {name shader : Json} {parameters textures : List Json}
      (read : MaterialFile.ofFields? name shader parameters textures = some file) :
      (name.text?.bind fun name => shader.text?.bind fun shader =>
        some (MaterialHeader.mk name shader)) = some ⟨file.name, file.shader⟩ := by
    rw [MaterialFile.ofFields?_name read, MaterialFile.ofFields?_shader read]
    rfl
  match v with
  | .array [name, shader] => exact fields read
  | .array (first :: second :: third :: rest) => exact absurd (.mk first second third rest) short
  | .array [_] | .array [] => cases read
  | .object members =>
    obtain ⟨keyed, are, read⟩ := Option.bind_eq_some_iff.1 read
    split at read
    · next name shader names shaders =>
      simp only [ofJson?, Option.bind_eq_bind, are, Option.bind_some, names, shaders]
      exact fields read
    · cases read
  | .null | .bool _ | .number _ | .string _ => cases read

/-- A file that is read has its own header, or none where it is a long array. -/
theorem load_of_file (read : MaterialFile.load disk path = .ok file) :
    (¬disk.WritesLongArray path → load disk path = .ok ⟨file.name, file.shader⟩) ∧
      (disk.WritesLongArray path → load disk path = .error (.malformedMaterial path)) := by
  unfold MaterialFile.load MaterialFile.parse? at read
  unfold load parse?
  cases there : disk.readText path with
  | error e => rw [there] at read; cases read
  | ok text =>
    cases parsed : Json.parse? text with
    | none => simp [there, parsed] at read
    | some v =>
      have is : MaterialFile.ofJson? v = some file := by
        simp only [there, parsed, Option.bind_some] at read
        split at read
        · next is => cases read; exact is
        · cases read
      have long : disk.WritesLongArray path ↔ v.LongArray := by
        refine ⟨?_, fun long => ⟨text, v, there, parsed, long⟩⟩
        rintro ⟨text', v', there', parsed', long⟩
        cases there.symm.trans there'
        cases parsed.symm.trans parsed'
        exact long
      rw [long]
      dsimp only
      rw [parsed, Option.bind_some]
      exact ⟨fun short => by rw [ofJson?_of_file is short],
        fun long => by rw [ofJson?_longArray long]⟩

end MaterialHeader

/-! ## Loads of materials -/

namespace Library

variable {l : Library} {h : Host} {path : String} {commands : Bool} {file : MaterialFile}

/-- Takes in a file that was read: the material of its name, or a new one if there is none. -/
def receive (file : MaterialFile) (commands : Bool) : Attempt Library Material := do
  match (← get).materials.get? file.name with
  | some m =>
    report (.materialCached file.name)
    pure m
  | none => ofFile file commands

/-- A load whose header is that of the file takes the file in. -/
theorem loadMaterial_receives (read : MaterialFile.load h.disk path = .ok file)
    (headed : MaterialHeader.load h.disk path = .ok ⟨file.name, file.shader⟩)
    {post : Except Error Material → Library → Host → Prop} :
    Attempt.Ends (loadMaterial path commands) l h post ↔
      Attempt.Ends (receive file commands) l h post := by
  unfold loadMaterial receive
  simp only [Attempt.ends_bind, Attempt.ends_getHost, Attempt.ends_get, Attempt.ends_ofExcept,
    Attempt.after_ok, headed, read]
  cases l.materials.get? file.name with
  | some m => exact Iff.rfl
  | none =>
    dsimp only
    rw [Attempt.ends_bind, Attempt.ends_ofExcept, Attempt.after_ok]

/-- A load without a header is turned down at once. -/
theorem loadMaterial_headless {e : Error} (headless : MaterialHeader.load h.disk path = .error e) :
    Attempt.Ends (loadMaterial path commands) l h fun r l' h' =>
      r = .error e ∧ l' = l ∧ h' = h := by
  unfold loadMaterial
  rw [Attempt.ends_bind, Attempt.ends_getHost, Attempt.after_ok, Attempt.ends_bind,
    Attempt.ends_ofExcept, headless]
  exact ⟨rfl, rfl, rfl⟩

end Library

namespace Session

/-- The loads of a material file that is read: they come to what taking in the file comes to, and
the material that they give is kept under the name of the file. -/
structure TakesIn (s : Session) (path : String) (file : MaterialFile) (commands : Bool) :
    Prop where
  same : ((Library.loadMaterial path commands).run.run s.library).run s.host =
    ((Library.receive file commands).run.run s.library).run s.host
  kept : Attempt.Ends (Library.loadMaterial path commands) s.library s.host fun r l' _ =>
    ∀ m, r = .ok m → l'.materials.get? file.name = some m

/-- A load without a header is turned down, and nothing changes. -/
theorem perform_headless {s : Session} {path : String} {e : Error}
    (headless : MaterialHeader.load s.host.disk path = .error e) (commands : Bool) :
    s.perform (.loadMaterial path commands) = (.error e, s) := by
  have refused : Attempt.Ends (Operation.loadMaterial path commands).attempt s.library s.host
      fun r l' h' => r = .error e ∧ l' = s.library ∧ h' = s.host := by
    refine (Library.loadMaterial_headless headless).bind ?_ ?_
    · rintro _ _ _ ⟨eq, _⟩
      cases eq
    · rintro _ _ _ ⟨eq, same⟩
      cases eq
      exact ⟨rfl, same⟩
  obtain ⟨answer, library, host⟩ := (s.ends_perform _).1 refused
  exact Prod.ext answer (congrArg₂ Session.mk library host)

/-- **When a header agrees with its file.** In every session, of a material file that is read:
the header is read too, with the name and the shader of the file, iff the file is no array of
more than two items. Then a load comes to what taking in the file comes to, which does not look
at the file again, and keeps the material under the name of the file; otherwise the load is
turned down as malformed, and nothing changes. -/
theorem header_agrees_iff (config : Config) (texts : OrderedMap String String) (loader : Loader)
    (disk : Disk) (ops : List Operation) (path : String) (file : MaterialFile)
    (read : MaterialFile.load ((start config texts loader disk).run ops).host.disk path =
      .ok file) :
    let s := (start config texts loader disk).run ops
    (MaterialHeader.load s.host.disk path = .ok ⟨file.name, file.shader⟩ ↔
      ¬s.host.disk.WritesLongArray path) ∧
    (¬s.host.disk.WritesLongArray path → ∀ commands, s.TakesIn path file commands) ∧
    (s.host.disk.WritesLongArray path → ∀ commands, s.perform (.loadMaterial path commands) =
      (.error (.malformedMaterial path), s)) := by
  intro s
  have sound : s.Sound := run_sound (start_sound config texts loader disk) ops
  obtain ⟨short, long⟩ := MaterialHeader.load_of_file read
  refine ⟨⟨fun headed is => ?_, short⟩, fun is commands => ⟨?_, ?_⟩, fun is commands => ?_⟩
  · cases headed.symm.trans (long is)
  · have received : Attempt.Ends (Library.loadMaterial path commands) s.library s.host
        fun r l' h' => ((r, l'), h') =
          ((Library.receive file commands).run.run s.library).run s.host :=
      (Library.loadMaterial_receives read (short is)).2 rfl
    exact received
  · exact (Library.loadMaterial_grows path commands sound.library sound.idle).mono
      fun _ _ _ ⟨_, kept⟩ m ok => kept m file ok read
  · exact perform_headless (long is) commands

/-- The file of an object has its header, and its material is kept. -/
theorem coat_agrees :
    let s := (start .standard .empty (.stub [] []) coatDisk).run []
    MaterialFile.load s.host.disk "coat.json" = .ok ⟨"Coat", "Paint", .empty, .empty⟩ ∧
    MaterialHeader.load s.host.disk "coat.json" = .ok ⟨"Coat", "Paint"⟩ ∧
    ∀ commands, s.TakesIn "coat.json" ⟨"Coat", "Paint", .empty, .empty⟩ commands := by
  obtain ⟨agrees, taken, -⟩ := header_agrees_iff .standard .empty (.stub [] []) coatDisk []
    "coat.json" ⟨"Coat", "Paint", .empty, .empty⟩ coat_read
  exact ⟨coat_read, coat_headed, taken (agrees.1 coat_headed)⟩

/-! ## A file without a header -/

/-- The file of a material that sets no value, as an array of three items. -/
def longDisk : Disk :=
  .ofFiles [] [("coat.json", Text.utf8 "[\"Coat\", \"Paint\", \x7b\x7d]")]

/-- The file is read, but it has no header, and no load takes it in. -/
theorem long_headless :
    MaterialFile.load longDisk "coat.json" = .ok ⟨"Coat", "Paint", .empty, .empty⟩ ∧
    MaterialHeader.load longDisk "coat.json" = .error (.malformedMaterial "coat.json") ∧
    ∀ commands, let s := start .standard .empty (.stub [] []) longDisk
      s.perform (.loadMaterial "coat.json" commands) =
        (.error (.malformedMaterial "coat.json"), s) := by
  have read : MaterialFile.load longDisk "coat.json" = .ok ⟨"Coat", "Paint", .empty, .empty⟩ :=
    ok_of_toOption (by decide +kernel)
  have unread : (MaterialHeader.load longDisk "coat.json").toOption = none := by decide +kernel
  obtain ⟨short, long⟩ := MaterialHeader.load_of_file read
  have headless : MaterialHeader.load longDisk "coat.json" =
      .error (.malformedMaterial "coat.json") := by
    refine long (Classical.byContradiction fun is => ?_)
    rw [short is] at unread
    cases unread
  exact ⟨read, headless, perform_headless headless⟩

end Session

end SurfaceShading
