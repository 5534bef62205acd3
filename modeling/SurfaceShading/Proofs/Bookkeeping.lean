/-
  The books of a library: what is pending, what was built, which materials there are and what
  they were made for. In every session the books are in order between any two operations, and no
  operation is refused because the registry is busy. Up to a shutdown an operation keeps every
  shader object and every material, and changes no material but those that it works on
  (`Operation.Continues`); so what an operation made for a shader is of the object that is in the
  library under the name of that shader, however long ago it was made (`Session.in_order`).
-/
import SurfaceShading.Proofs.Library.Continuity
import SurfaceShading.Proofs.Library.NeverBusy
import SurfaceShading.Proofs.TextureViews

namespace SurfaceShading

theorem Library.defaultName_injective : Function.Injective Library.defaultName := by
  intro shader shader' same
  have chars := congrArg String.toList same
  unfold defaultName at chars
  rw [String.toList_append, String.toList_append] at chars
  exact String.toList_inj.1 (List.append_cancel_right chars)

namespace Operation

open Library

/-- From outside no material is made one of another name or another shader. -/
def KeepsOrigins : Operation → Prop
  | changeMaterial _ change => ∀ m : Material, m.SameOrigin (change m)
  | _ => True

/-- The operation works on the material of a name. -/
def WorksOn : Operation → String → Prop
  | changeMaterial other _, name => name = other
  | bindMaterial other, name => name = other
  | resolvePending, _ => True
  | _, _ => False

/-- What becomes of the material of a name by a change from outside. -/
def changed : Operation → String → Material → Material
  | changeMaterial other change, name, m => if name = other then change m else m
  | _, _, m => m

/-- The operation asks for a material of a name, for the shader of a name. -/
def AsksFor : Operation → Disk → String → String → Prop
  | createMaterial name shader, _, name', key => name' = name ∧ key = shader
  | loadMaterial path _, disk, name, key =>
    ∃ file, MaterialFile.load disk path = .ok file ∧ file.name = name ∧ file.shader = key
  | createDefaults, _, name, key => name = defaultName key
  | _, _, _, _ => False

theorem AsksFor.unique {op : Operation} {disk : Disk} {name key key' : String}
    (asked : op.AsksFor disk name key) (asked' : op.AsksFor disk name key') : key = key' := by
  cases op with
  | createMaterial name shader => exact asked.2.trans asked'.2.symm
  | loadMaterial path commands =>
    obtain ⟨file, read, _, rfl⟩ := asked
    obtain ⟨file', read', _, rfl⟩ := asked'
    cases read.symm.trans read'
    rfl
  | createDefaults => exact defaultName_injective (asked.symm.trans asked')
  | _ => exact asked.elim

/-- What an operation makes of a library. The shader objects are kept. A material is kept with
what was set, and with its buffer if it had one, after a change from outside if that is what the
operation is; it is not changed at all unless it is worked on. A new material is one that was
asked for. -/
structure Continues (op : Operation) (disk : Disk) (l l' : Library) : Prop where
  shaders : KeepsShaders l l'
  numbered : l.Numbered → l'.Numbered
  sorted : l.materials.Sorted → l'.materials.Sorted
  kept : ∀ name m, l.materials.get? name = some m → ∃ m', l'.materials.get? name = some m' ∧
    (op.changed name m).Becomes m' ∧ (¬ op.WorksOn name → m' = m)
  made : ∀ name m, l.materials.get? name = none → l'.materials.get? name = some m →
    m.name = name ∧ ∃ key, op.AsksFor disk name key ∧ l'.Uses m key

namespace Continues

variable {op : Operation} {disk : Disk} {l l' : Library} {h h' : Host}

theorem ofGrows (grows : Grows (op.AsksFor disk) l l') (same : ∀ name m, op.changed name m = m) :
    op.Continues disk l l' :=
  { shaders := grows.shaders
    numbered := grows.numbered
    sorted := grows.sorted
    kept := fun name m there => ⟨m, grows.kept there, (same name m).symm ▸ .refl m, fun _ => rfl⟩
    made := fun _ _ => grows.made }

theorem ofBecome (aside : Aside l h l' h') (same : ∀ name m, op.changed name m = m)
    (become : MaterialsBecome op.WorksOn l.materials l'.materials) : op.Continues disk l l' where
  shaders := .ofSame aside.shaders
  numbered numbered := by
    rw [aside.same]
    exact ⟨numbered.given, numbered.distinct⟩
  sorted := become.sorted
  kept name m there := by
    rw [same]
    exact become.kept there
  made name m new there := by
    rw [become.none new] at there
    cases there

end Continues

theorem changed_changeMaterial (other name : String) (change : Material → Material)
    (m : Material) :
    (changeMaterial other change).changed name m = if name = other then change m else m := rfl

theorem changeMaterial_continues (name : String) (change : Material → Material) (disk : Disk)
    (l : Library) :
    (changeMaterial name change).Continues disk l (Library.changeMaterial name change l) := by
  unfold Library.changeMaterial
  split
  · next m there =>
    refine ⟨.ofSame rfl, fun numbered => ⟨numbered.given, numbered.distinct⟩,
      fun sorted => sorted.insert _ _, fun other m₀ is => ?_, fun other m₀ new is => ?_⟩
    · rw [changed_changeMaterial, OrderedMap.get?_insert]
      by_cases same : other = name
      · subst same
        cases there.symm.trans is
        rw [if_pos rfl, if_pos rfl]
        exact ⟨change m, rfl, .refl _, absurd rfl⟩
      · rw [if_neg same, if_neg same]
        exact ⟨m₀, is, .refl m₀, fun _ => rfl⟩
    · rw [OrderedMap.get?_insert] at is
      split at is
      · next same =>
        rw [same, there] at new
        cases new
      · rw [new] at is
        cases is
  · next missing =>
    refine ⟨.ofSame rfl, id, id, fun other m is => ⟨m, is, ?_, fun _ => rfl⟩,
      fun other m new is => ?_⟩
    · rw [changed_changeMaterial, if_neg fun same => ?_]
      · exact .refl m
      · rw [same, missing] at is
        cases is
    · rw [new] at is
      cases is

/-- Every operation but a shutdown continues the library that it finds. -/
theorem continues (op : Operation) (going : op ≠ .shutdown) (l : Library) (h : Host)
    (sound : l.Sound h.device) (idle : l.registry.state = .idle) (sorted : l.materials.Sorted) :
    Attempt.Ends op.attempt l h fun _ l' _ => op.Continues h.disk l l' := by
  have moved {op : Operation} (same : ∀ name m, op.changed name m = m) {l' : Library} {h' : Host}
      (moves : Moves l h l' h') : op.Continues h.disk l l' := .ofGrows (.ofMoves moves) same
  cases op with
  | world disk loader rejected policy => exact .ofGrows (.refl l) fun _ _ => rfl
  | registerSource name text =>
    exact .ofGrows (.ofShaders (.ofSame rfl) (fun numbered =>
      ⟨numbered.given, numbered.distinct⟩) rfl) fun _ _ => rfl
  | registerShaders names =>
    exact .done ((registerShaders_ends names l h idle).mono fun _ _ _ ended =>
      moved (fun _ _ => rfl) ended.1.moves)
  | registerAll =>
    exact .done ((registerAll_ends l h idle).mono fun _ _ _ ended =>
      moved (fun _ _ => rfl) ended.1.moves)
  | compilePending =>
    exact (compilePending_ends l h sound idle).mono fun _ _ _ compiled =>
      moved (fun _ _ => rfl) compiled.moves
  | loadAll =>
    exact (loadAll_ends l h sound idle).mono fun _ _ _ loaded =>
      moved (fun _ _ => rfl) loaded.moves
  | loadShader name =>
    exact .done ((loadShader_builds name sound idle).mono fun _ _ _ loaded =>
      moved (fun _ _ => rfl) loaded.1)
  | regenerate =>
    exact .done ((regenerateExcept_ends [] l h sound idle fun _ mem =>
      absurd mem List.not_mem_nil).mono fun _ _ _ regenerated =>
        moved (fun _ _ => rfl) regenerated.moves)
  | createMaterial name shader =>
    exact .done ((createMaterial_grows name shader sound idle).mono fun _ _ _ grows =>
      .ofGrows grows fun _ _ => rfl)
  | createDefaults =>
    exact .done ((createDefaults_grows sound idle).mono fun _ _ _ grows =>
      .ofGrows grows fun _ _ => rfl)
  | loadMaterial path commands =>
    exact .done ((loadMaterial_grows path commands sound idle).mono fun _ _ _ ended =>
      .ofGrows ended.1 fun _ _ => rfl)
  | resolvePending =>
    exact .done (((resolvePending_aside l h).and (resolvePending_becomes sorted)).mono
      fun _ _ _ ended => .ofBecome ended.1 (fun _ _ => rfl) ended.2)
  | changeMaterial name change => exact changeMaterial_continues name change h.disk l
  | bindMaterial name =>
    refine bindNamed_rule (fun m there => ?_) (.ofGrows (.refl l) fun _ _ => rfl)
    exact ((bindMaterial_aside name m).and (bindMaterial_becomes there)).mono
      fun _ _ _ ended => .ofBecome ended.1 (fun _ _ => rfl) ended.2
  | saveMaterial name path =>
    have same : Attempt.Ends (Library.saveMaterial name path) l h fun _ l' _ =>
        l'.materials = l.materials := saveMaterial_rule (fun _ _ => rfl) fun _ => rfl
    exact ((saveMaterial_aside name path).and same).mono fun _ _ _ ended =>
      .ofGrows (.ofAside ended.1 ended.2) fun _ _ => rfl
  | releaseTexture path =>
    have same : Work.Ends (Library.releaseTexture path) l h fun _ l' _ =>
        l'.materials = l.materials := rfl
    exact .done ((Attempt.ends_liftWork _).2 (((releaseTexture_aside path).and same).mono
      fun _ _ _ ended => .ofGrows (.ofAside ended.1 ended.2) fun _ _ => rfl))
  | shutdown => exact absurd rfl going

end Operation

namespace Library

/-- The books of a library are in order. Pending shaders are listed once each, and are read and
not built; what was built is in the library; the registry is idle. No two shader objects have one
number. Every material is kept under its own name, and is of a shader object of the library. -/
structure InOrder (l : Library) : Prop where
  pending_nodup : l.pending.Nodup
  pending_waits : ∀ name ∈ l.pending, ∃ e, l.shaders.get? name = some e ∧ e.built = false
  built_there : ∀ name ∈ l.builtShaders.keys, ∃ o, l.shader? name = some o
  idle : l.registry.state = .idle
  numbered : l.Numbered
  sorted : l.materials.Sorted
  named : ∀ name m, l.materials.get? name = some m → m.name = name
  used : ∀ name m, l.materials.get? name = some m → ∃ key, l.Uses m key

end Library

namespace Session

open Library

variable {s : Session}

theorem Sound.inOrder (sound : s.Sound) (numbered : s.library.Numbered)
    (sorted : s.library.materials.Sorted)
    (materials : ∀ name m, s.library.materials.get? name = some m →
      m.name = name ∧ ∃ key, s.library.Uses m key) : s.library.InOrder where
  pending_nodup := sound.library.pending_nodup
  pending_waits := sound.library.pending_waits
  built_there name mem := by
    obtain ⟨e, there, _⟩ := (mem_builtShaders_keys sound.library.shaders_sorted).1 mem
    exact ⟨e.object, shader?_eq_some.2 ⟨e, there, rfl⟩⟩
  idle := sound.idle
  numbered := numbered
  sorted := sorted
  named name m there := (materials name m there).1
  used name m there := (materials name m there).2

theorem start_inOrder (config : Config) (texts : OrderedMap String String) (loader : Loader)
    (disk : Disk) : (start config texts loader disk).library.InOrder :=
  (start_sound config texts loader disk).inOrder
    { given := fun is => nomatch is
      distinct := fun is => nomatch is }
    OrderedMap.sorted_empty fun _ _ is => nomatch is

theorem step_continues (sound : s.Sound) (sorted : s.library.materials.Sorted) {op : Operation}
    (going : op ≠ .shutdown) : op.Continues s.host.disk s.library (s.step op).library :=
  (s.ends_perform op).1 (op.continues going s.library s.host sound.library sound.idle sorted)

/-- A shutdown forgets shaders and materials. -/
theorem step_shutdown (s : Session) :
    (s.step .shutdown).library.shaders = .empty ∧
      (s.step .shutdown).library.materials = .empty := by
  refine (s.ends_perform .shutdown).1 (?_ : Attempt.Ends _ _ _ fun _ l' _ =>
    l'.shaders = .empty ∧ l'.materials = .empty)
  refine (Attempt.ends_liftWork _).2 ((shutdown_ends s.library s.host).mono ?_)
  rintro _ l' _ ⟨_, same⟩
  rw [same]
  exact ⟨rfl, rfl⟩

theorem changed_origin {op : Operation} (keeps : op.KeepsOrigins) (name : String) (m : Material) :
    m.SameOrigin (op.changed name m) := by
  cases op with
  | changeMaterial other change =>
    rw [Operation.changed_changeMaterial]
    split
    · exact keeps m
    · exact Std.Refl.refl m
  | _ => exact Std.Refl.refl m

/-- Every operation leaves the books in order. -/
theorem step_inOrder (sound : s.Sound) (order : s.library.InOrder) {op : Operation}
    (keeps : op.KeepsOrigins) : (s.step op).library.InOrder := by
  have sound' : (s.step op).Sound := step_sound sound op
  by_cases going : op = .shutdown
  · subst going
    obtain ⟨shaders, materials⟩ := s.step_shutdown
    refine sound'.inOrder ⟨?_, ?_⟩ (materials ▸ OrderedMap.sorted_empty) ?_
    · rw [shaders]
      exact fun is => nomatch is
    · rw [shaders]
      exact fun is => nomatch is
    · rw [materials]
      exact fun _ _ is => nomatch is
  · have continued := step_continues sound order.sorted going
    refine sound'.inOrder (continued.numbered order.numbered) (continued.sorted order.sorted) ?_
    intro name m' there'
    cases there : s.library.materials.get? name with
    | none =>
      obtain ⟨own, key, _, uses⟩ := continued.made name m' there there'
      exact ⟨own, key, uses⟩
    | some m =>
      obtain ⟨m₁, there₁, becomes, _⟩ := continued.kept name m there
      cases there₁.symm.trans there'
      have same := (changed_origin keeps name m).trans becomes.toSameOrigin
      obtain ⟨key, uses⟩ := order.used name m there
      exact ⟨same.name.trans (order.named name m there), key,
        (uses.keep continued.shaders).become same⟩

theorem run_inOrder (sound : s.Sound) (order : s.library.InOrder) (ops : List Operation)
    (keep : ∀ op ∈ ops, op.KeepsOrigins) : (s.run ops).library.InOrder := by
  induction ops generalizing s with
  | nil => exact order
  | cons op rest ih =>
    exact ih (step_sound sound op) (step_inOrder sound order (keep op List.mem_cons_self))
      fun other mem => keep other (List.mem_cons_of_mem op mem)

/-! ## Runs without a shutdown -/

/-- Up to a shutdown, shader objects and materials stay. -/
theorem run_keeps (sound : s.Sound) (order : s.library.InOrder) (ops : List Operation)
    (keep : ∀ op ∈ ops, op.KeepsOrigins) (going : .shutdown ∉ ops) :
    KeepsShaders s.library (s.run ops).library ∧
      ∀ name m, s.library.materials.get? name = some m →
        ∃ m', (s.run ops).library.materials.get? name = some m' ∧ m.SameOrigin m' := by
  induction ops generalizing s with
  | nil => exact ⟨.ofSame rfl, fun _ m there => ⟨m, there, Std.Refl.refl m⟩⟩
  | cons op rest ih =>
    have keeps := keep op List.mem_cons_self
    have continued := step_continues sound order.sorted fun is =>
      going (is ▸ List.mem_cons_self)
    obtain ⟨shaders, materials⟩ := ih (step_sound sound op) (step_inOrder sound order keeps)
      (fun other mem => keep other (List.mem_cons_of_mem op mem))
      fun mem => going (List.mem_cons_of_mem op mem)
    refine ⟨continued.shaders.trans shaders, fun name m there => ?_⟩
    obtain ⟨m₁, there₁, becomes, _⟩ := continued.kept name m there
    obtain ⟨m₂, there₂, same⟩ := materials name m₁ there₁
    exact ⟨m₂, there₂, ((changed_origin keeps name m).trans becomes.toSameOrigin).trans same⟩

/-- An operation makes a material of a name, for the shader of a name. -/
def Makes (s : Session) (op : Operation) (name key : String) : Prop :=
  s.library.materials.get? name = none ∧
    (∃ m, (s.step op).library.materials.get? name = some m) ∧ op.AsksFor s.host.disk name key

/-- Some operation of a run makes a material, and there is no shutdown after it. -/
def MadeIn : Session → List Operation → String → String → Prop
  | _, [], _, _ => False
  | s, op :: rest, name, key =>
    s.Makes op name key ∧ .shutdown ∉ rest ∨ (s.step op).MadeIn rest name key

/-- What the last operation of a run makes. -/
theorem Makes.madeIn {ops : List Operation} {op : Operation} {name key : String}
    (made : (s.run ops).Makes op name key) : s.MadeIn (ops ++ [op]) name key := by
  induction ops generalizing s with
  | nil => exact .inl ⟨made, List.not_mem_nil⟩
  | cons first rest ih => exact .inr (ih made)

theorem Makes.uses {op : Operation} {name key : String} (made : s.Makes op name key)
    (sound : s.Sound) (sorted : s.library.materials.Sorted) :
    ∃ m, (s.step op).library.materials.get? name = some m ∧ (s.step op).library.Uses m key := by
  obtain ⟨new, ⟨m, there⟩, asked⟩ := made
  have going : op ≠ .shutdown := fun is => by
    subst is
    exact asked.elim
  obtain ⟨_, key', asked', uses⟩ := (step_continues sound sorted going).made name m new there
  exact ⟨m, there, asked.unique asked' ▸ uses⟩

/-- What was made for a shader is there, and is of the shader object that is there. -/
theorem MadeIn.uses {ops : List Operation} {name key : String} (made : s.MadeIn ops name key)
    (sound : s.Sound) (order : s.library.InOrder) (keep : ∀ op ∈ ops, op.KeepsOrigins) :
    ∃ m, (s.run ops).library.materials.get? name = some m ∧ (s.run ops).library.Uses m key := by
  induction ops generalizing s with
  | nil => exact made.elim
  | cons op rest ih =>
    have sound' := step_sound sound op
    have order' := step_inOrder sound order (keep op List.mem_cons_self)
    have keep' : ∀ other ∈ rest, other.KeepsOrigins :=
      fun other mem => keep other (List.mem_cons_of_mem op mem)
    rcases made with ⟨made, going⟩ | later
    · obtain ⟨m, there, uses⟩ := made.uses sound order.sorted
      obtain ⟨shaders, materials⟩ := run_keeps sound' order' rest keep' going
      obtain ⟨m', there', same⟩ := materials name m there
      exact ⟨m', there', (uses.keep shaders).become same⟩
    · exact ih later sound' order' keep'

/-- A material that is there was there from the start, or was made since a shutdown. -/
theorem made_or_there (sound : s.Sound) (order : s.library.InOrder) (ops : List Operation)
    (keep : ∀ op ∈ ops, op.KeepsOrigins) {name : String} {m : Material}
    (there : (s.run ops).library.materials.get? name = some m) :
    (∃ m₀, s.library.materials.get? name = some m₀ ∧ .shutdown ∉ ops) ∨
      ∃ key, s.MadeIn ops name key := by
  induction ops generalizing s with
  | nil => exact .inl ⟨m, there, List.not_mem_nil⟩
  | cons op rest ih =>
    have order' := step_inOrder sound order (keep op List.mem_cons_self)
    rcases ih (step_sound sound op) order'
      (fun other mem => keep other (List.mem_cons_of_mem op mem)) there with ⟨m₁, there₁, going⟩ | ⟨key, made⟩
    · by_cases shut : op = .shutdown
      · subst shut
        rw [s.step_shutdown.2] at there₁
        cases there₁
      · cases before : s.library.materials.get? name with
        | some m₀ =>
          refine .inl ⟨m₀, rfl, fun mem => ?_⟩
          rcases List.mem_cons.1 mem with is | mem
          · exact shut is.symm
          · exact going mem
        | none =>
          obtain ⟨_, key, asked, _⟩ :=
            (step_continues sound order.sorted shut).made name m₁ before there₁
          exact .inr ⟨key, .inl ⟨⟨before, ⟨m₁, there₁⟩, asked⟩, going⟩⟩
    · exact .inr ⟨key, .inr made⟩

/-! ## All sessions -/

/-- **The books are in order.** After any operations of a session, whatever the device refused,
the books of the library are in order, and no operation is answered with an error that the
registry is busy. Short of a shutdown the next operation continues the library, and any number of
operations keep its shader objects and its materials. The materials that are there are those that
were made since the last shutdown, and the materials made for one shader are of one object. -/
theorem in_order (config : Config) (texts : OrderedMap String String) (loader : Loader)
    (disk : Disk) (ops : List Operation) (keep : ∀ op ∈ ops, op.KeepsOrigins) :
    let s := start config texts loader disk
    let s' := s.run ops
    s'.library.InOrder ∧
    (∀ op conflict, (s'.perform op).1 ≠ .error (.registryBusy conflict)) ∧
    (∀ op : Operation, op ≠ .shutdown →
      op.Continues s'.host.disk s'.library (s'.step op).library) ∧
    (∀ later, .shutdown ∉ later → (∀ op ∈ later, op.KeepsOrigins) →
      KeepsShaders s'.library (s'.run later).library ∧
      ∀ name m, s'.library.materials.get? name = some m →
        ∃ m', (s'.run later).library.materials.get? name = some m' ∧ m.SameOrigin m') ∧
    (∀ name, (∃ m, s'.library.materials.get? name = some m) ↔ ∃ key, s.MadeIn ops name key) ∧
    (∀ name key m, s.MadeIn ops name key → s'.library.materials.get? name = some m →
      s'.library.Uses m key) ∧
    ∀ name name' key m m', s.MadeIn ops name key → s.MadeIn ops name' key →
      s'.library.materials.get? name = some m → s'.library.materials.get? name' = some m' →
        m.object = m'.object ∧ m.shader = m'.shader := by
  intro s s'
  have start := start_sound config texts loader disk
  have orderly := start_inOrder config texts loader disk
  have sound : s'.Sound := run_sound start ops
  have order : s'.library.InOrder := run_inOrder start orderly ops keep
  have uses {name key : String} {m : Material} (made : s.MadeIn ops name key)
      (there : s'.library.materials.get? name = some m) : s'.library.Uses m key := by
    obtain ⟨m₁, there₁, uses⟩ := made.uses start orderly keep
    cases there.symm.trans there₁
    exact uses
  refine ⟨order, fun op => ?_, fun op => step_continues sound order.sorted,
    fun later going keep' => run_keeps sound order later keep' going, fun name => ⟨?_, ?_⟩,
    fun _ _ _ => uses, ?_⟩
  · exact ((s'.ends_perform op).1 (op.calm s'.library s'.host sound.idle)).2
  · rintro ⟨m, there⟩
    rcases made_or_there start orderly ops keep there with ⟨_, is, _⟩ | made
    · cases is
    · exact made
  · rintro ⟨key, made⟩
    obtain ⟨m, there, _⟩ := made.uses start orderly keep
    exact ⟨m, there⟩
  · intro name name' key m m' made made' there there'
    obtain ⟨o, is, object, shader⟩ := uses made there
    obtain ⟨o', is', object', shader'⟩ := uses made' there'
    cases is.symm.trans is'
    exact ⟨object.symm.trans object', shader.symm.trans shader'⟩

/-- The material of a file, loaded once its shader is there. -/
theorem PaintsAnew.makes {s : Session} (anew : PaintsAnew "Paint" s)
    (materials : s.library.materials = .empty)
    (made : ∀ h : Host, h.device.policy = Device.acceptAll →
      Attempt.Ends TextureTable.ensureDefaults s.library.textures h fun r _ _ => r = .ok ()) :
    (s.run paintLoaded).Makes (.loadMaterial "coat.json" true) "Coat" "Paint" := by
  obtain ⟨_, new, _, m, there, _⟩ := anew.coats (P := fun _ => True) materials fun h policy =>
    (made h policy).mono fun _ _ _ ok => ⟨ok, True.intro⟩
  have disk : (s.run paintLoaded).host.disk = coatDisk := rfl
  exact ⟨new, ⟨m, there⟩, _, disk ▸ coat_read, rfl, rfl⟩

/-- It is of the shader object that it asked for. -/
theorem coat_in_order :
    (∀ op ∈ paintLoaded ++ [.loadMaterial "coat.json" true], op.KeepsOrigins) ∧
    let s' := paintShop.run (paintLoaded ++ [.loadMaterial "coat.json" true])
    s'.library.InOrder ∧ ∃ m, s'.library.materials.get? "Coat" = some m ∧
      s'.library.Uses m "Paint" := by
  have keep : ∀ op ∈ paintLoaded ++ [.loadMaterial "coat.json" true], op.KeepsOrigins := by
    simp [paintLoaded, Operation.KeepsOrigins]
  have books := in_order .standard (OrderedMap.empty.insert "Paint" paintText) (.stub [] [])
    coatDisk (paintLoaded ++ [.loadMaterial "coat.json" true]) keep
  rw [← paintShop] at books
  obtain ⟨order, _, _, _, there, uses, _⟩ := books
  have made := (paintsAnew_paintShop.makes rfl fun h policy =>
    TextureTable.ensureDefaults_accepted (by rw [policy]; exact fun _ _ => rfl)).madeIn
  obtain ⟨m, is⟩ := (there "Coat").2 ⟨"Paint", made⟩
  exact ⟨keep, order, m, is, uses "Coat" "Paint" m made is⟩

end Session

end SurfaceShading
