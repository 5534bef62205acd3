/-
  Walks over the directories of a disk. A walk over two stretches of steps is a walk over the
  second from the directory that the first leads to (`Disk.follow_append`), so a path that is put
  below another leads where it leads from there (`Disk.locate_join`). Without dots among its
  steps, a walk ends at what the steps spell (`Disk.follow_spelled`).
-/
import SurfaceShading.Proofs.ShaderFiles
import SurfaceShading.Proofs.Text.Cuts

namespace SurfaceShading

/-! ## The steps of a path -/

namespace Path

theorem steps_append_slash (front back : List Char) :
    steps (String.ofList (front ++ '/' :: back)) =
      steps (String.ofList front) ++ steps (String.ofList back) := by
  rw [steps, steps, steps, String.toList_ofList, String.toList_ofList, String.toList_ofList,
    Text.splitAtChar_append_cons, List.filter_append, List.map_append]

/-- A path below another goes the steps of both. -/
theorem steps_join {base path : String} (relative : isAbsolute path = false) :
    steps (join base path) = steps base ++ steps path := by
  unfold join
  split
  · next alone =>
    rw [relative, Bool.false_or, String.isEmpty_iff] at alone
    rw [alone]
    rfl
  · split
    · next ends =>
      obtain ⟨front, is⟩ := List.getLast?_eq_some_iff.1 (beq_iff_eq.1 ends)
      have slashed : base = String.ofList (front ++ '/' :: []) := by
        rw [← is, String.ofList_toList]
      have whole : base ++ path = String.ofList (front ++ '/' :: path.toList) := by
        rw [← String.toList_inj, String.toList_append, String.toList_ofList, is,
          List.append_assoc, List.singleton_append]
      have nothing : steps (String.ofList []) = [] := rfl
      rw [whole, steps_append_slash, String.ofList_toList, slashed, steps_append_slash, nothing,
        List.append_nil]
    · have whole : base ++ "/" ++ path = String.ofList (base.toList ++ '/' :: path.toList) := by
        rw [← String.toList_inj, String.toList_append, String.toList_append, String.toList_ofList,
          List.append_assoc, List.singleton_append, String.toList_ofList]
      rw [whole, steps_append_slash, String.ofList_toList, String.ofList_toList]

/-- What is put in front of a relative path depends on the base alone. -/
theorem exists_join (base : String) :
    ∃ front, ∀ path, isAbsolute path = false → join base path = front ++ path := by
  unfold join
  by_cases empty : base.isEmpty = true
  · refine ⟨"", fun path _ => ?_⟩
    rw [empty, Bool.or_true, if_pos rfl, String.empty_append]
  · have other {path : String} (relative : isAbsolute path = false) :
        ¬ (isAbsolute path || base.isEmpty) = true := by
      rw [relative, Bool.false_or]
      exact empty
    by_cases ends : endsWithSlash base = true
    · exact ⟨base, fun path relative => by rw [if_neg (other relative), if_pos ends]⟩
    · exact ⟨base ++ "/", fun path relative => by rw [if_neg (other relative), if_neg ends]⟩

/-- A name, as it can stand between two slashes. -/
structure IsName (name : String) : Prop where
  nonempty : name.toList ≠ []
  noSlash : '/' ∉ name.toList

namespace IsName

variable {name : String}

theorem steps (is : IsName name) : Path.steps name = [name] := by
  have kept : [name.toList].filter (! ·.isEmpty) = [name.toList] := by
    rw [List.filter_cons_of_pos (by simpa using is.nonempty), List.filter_nil]
  rw [Path.steps, Text.splitAtChar_single is.noSlash, kept, List.map_singleton,
    String.ofList_toList]

theorem relative (is : IsName name) : isAbsolute name = false := by
  unfold isAbsolute
  cases chars : name.toList with
  | nil => rfl
  | cons c cs =>
    have other : c ≠ '/' := fun same => is.noSlash (by rw [chars, same]; exact List.mem_cons_self)
    simpa using other

theorem not_endsWithSlash (is : IsName name) (base : String) :
    endsWithSlash (join base name) = false :=
  EndsIn.not_endsWithSlash (EndsIn.join (List.suffix_refl name.toList) base) is.noSlash is.nonempty

end IsName

theorem join_ne_empty {base path : String} (nonempty : path ≠ "") : join base path ≠ "" := by
  have front (s : String) : s ++ path ≠ "" := fun empty => nonempty (by
    rw [← String.toList_inj, String.toList_append] at empty
    rw [← String.toList_inj, (List.append_eq_nil_iff.1 empty).2]
    rfl)
  unfold join
  split
  · exact nonempty
  · split
    · exact front base
    · exact front _

end Path

namespace Disk

/-! ## Walks in two stretches -/

/-- The names of the place that a walk came to. -/
def Place.names : Place → List String
  | directory names => names
  | file names _ => names
  | absent names => names

/-- The directory in which a walk goes on, if it can. -/
def Place.enter : Place → Except FileError (List String)
  | directory names => .ok names
  | file _ _ => .error .notADirectory
  | absent _ => .error .notFound

/-- A walk over two stretches of steps. -/
theorem follow_append (disk : Disk) {rest : List String} (more : rest ≠ [])
    (names first : List String) :
    disk.follow names (first ++ rest) = (do
      let place ← disk.follow names first
      disk.follow (← place.enter) rest) := by
  induction first generalizing names with
  | nil => rfl
  | cons step first ih =>
    have goesOn : (first ++ rest).isEmpty = false := by simp [more]
    rw [List.cons_append, follow, follow]
    split
    · exact ih names
    · split
      · exact ih _
      · split
        · rfl
        · cases there : disk.get? (names ++ [step]) with
          | none =>
            simp only [there, goesOn]
            cases first <;> rfl
          | some node =>
            cases node with
            | directory =>
              simp only [there]
              exact ih _
            | file bytes =>
              simp only [there, goesOn]
              cases first <;> rfl

/-- Without dots among its steps, a walk ends at what the steps spell. -/
theorem follow_spelled {disk : Disk} {names steps : List String} {place : Place}
    (walk : disk.follow names steps = .ok place)
    (noDots : ∀ step ∈ steps, step ≠ "." ∧ step ≠ "..") : place.names = names ++ steps := by
  induction steps generalizing names with
  | nil =>
    cases walk
    exact (List.append_nil names).symm
  | cons step rest ih =>
    obtain ⟨notHere, notUp⟩ := noDots step List.mem_cons_self
    have noDots' := fun s (mem : s ∈ rest) => noDots s (List.mem_cons_of_mem step mem)
    cases follow_cons_eq_ok.1 walk with
    | stay here _ => exact absurd here notHere
    | up _ up _ => exact absurd up notUp
    | enter _ _ _ _ walk => rw [ih walk noDots', List.append_assoc, List.singleton_append]
    | file _ _ _ _ last is =>
      subst last is
      rfl
    | absent _ _ _ _ last is =>
      subst last is
      rfl

/-! ## Paths below a directory -/

theorem checkPath_eq_ok {path : String} :
    checkPath path = .ok () ↔ '\x00' ∉ path.toList ∧ path.utf8ByteSize ≤ maxPathBytes := by
  unfold checkPath
  split
  · next nul => exact iff_of_false nofun fun fits => fits.1 (List.contains_iff_mem.1 nul)
  · next noNul =>
    have noNul : '\x00' ∉ path.toList := fun mem => noNul (List.contains_iff_mem.2 mem)
    split
    · next long => exact iff_of_false nofun fun fits => Nat.not_lt.2 fits.2 long
    · next fits => exact iff_of_true rfl ⟨noNul, Nat.not_lt.1 fits⟩

theorem stepsBelow_eq_ok {path : String} {steps : List String} :
    stepsBelow path = .ok steps ↔ checkPath path = .ok () ∧ path ≠ "" ∧
      Path.steps path = steps := by
  unfold stepsBelow
  rw [except_bind_eq_ok]
  constructor
  · rintro ⟨⟨⟩, checked, is⟩
    split at is
    · cases is
    · next nonempty =>
      cases is
      exact ⟨checked, mt String.isEmpty_iff.2 nonempty, rfl⟩
  · rintro ⟨checked, nonempty, rfl⟩
    exact ⟨(), checked, if_neg (mt String.isEmpty_iff.1 nonempty)⟩

/-- A path that leads to a directory. -/
structure LeadsTo (disk : Disk) (path : String) (names : List String) : Prop where
  checked : checkPath path = .ok ()
  nonempty : path ≠ ""
  walk : disk.follow [] (Path.steps path) = .ok (.directory names)

/-- A slash at the end of the path of a directory makes no difference. -/
theorem leadsTo_of_locate {disk : Disk} {path : String} {names : List String}
    (located : disk.locate path = .ok (.directory names)) : disk.LeadsTo path names := by
  obtain ⟨steps, below, walk⟩ := except_bind_eq_ok.1 located
  obtain ⟨checked, nonempty, rfl⟩ := stepsBelow_eq_ok.1 below
  refine ⟨checked, nonempty, ?_⟩
  split at walk
  · rw [follow_append disk (List.cons_ne_nil _ _)] at walk
    obtain ⟨place, first, last⟩ := except_bind_eq_ok.1 walk
    obtain ⟨inside, enter, here⟩ := except_bind_eq_ok.1 last
    rw [first]
    cases place with
    | directory names' =>
      cases enter
      exact here
    | file _ _ => cases enter
    | absent _ => cases enter
  · exact walk

/-- A name below a directory leads to what has the name there. -/
theorem locate_join {disk : Disk} {path name : String} {names : List String}
    (leads : disk.LeadsTo path names) (is : Path.IsName name)
    (checked : checkPath (Path.join path name) = .ok ()) :
    disk.locate (Path.join path name) = disk.follow names [name] := by
  have nonempty : name ≠ "" := fun empty => is.nonempty (by rw [empty]; rfl)
  have below := stepsBelow_eq_ok.2 ⟨checked, Path.join_ne_empty nonempty, rfl⟩
  rw [locate, below, is.not_endsWithSlash path, Path.steps_join is.relative, is.steps]
  show disk.follow [] (Path.steps path ++ [name]) = _
  rw [follow_append disk (List.cons_ne_nil _ _), leads.walk]
  rfl

/-- A directory lists the names that lead to something in it. -/
theorem list_eq_ok {disk : Disk} {path : String} {files : List String}
    (listed : disk.list path = .ok files) :
    ∃ names, disk.LeadsTo path names ∧
      ∀ file, file ∈ files ↔ ∃ node, disk.get? (names ++ [file]) = some node := by
  obtain ⟨place, located, lists⟩ := except_bind_eq_ok.1 listed
  cases place with
  | file _ _ => cases lists
  | absent _ => cases lists
  | directory names =>
    cases lists
    refine ⟨names, leadsTo_of_locate located, fun file => ?_⟩
    rw [← OrderedMap.mem_keys_iff, List.mem_filterMap]
    constructor
    · rintro ⟨key, mem, is⟩
      split at is
      · next below =>
        obtain ⟨init, rfl⟩ := List.getLast?_eq_some_iff.1 is
        obtain ⟨length, front⟩ := below
        rw [List.length_append, List.length_singleton, Nat.add_right_cancel_iff] at length
        rw [← length, List.take_left] at front
        rwa [← front]
      · cases is
    · intro mem
      refine ⟨_, mem, ?_⟩
      rw [if_pos ⟨List.length_append, List.take_left⟩, List.getLast?_concat]

end Disk

end SurfaceShading
