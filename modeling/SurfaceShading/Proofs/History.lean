/-
  What a session took in. An operation takes shaders in and then works beside them, unless it
  only changes what lies around the library or makes it forget its shaders (`Library.Passage`);
  a run is a sequence of such passages, and its history lists the shaders that were taken in,
  in order (`Session.History`).

  A number stands for the first model of the history that has it, whatever the library forgot
  since (`History.get?`). A shader that is held was taken in by one operation of the run, as
  the sources declared it before that operation (`Session.run_holds`).
-/
import SurfaceShading.Proofs.Library.Declared
import SurfaceShading.Proofs.Session

namespace SurfaceShading

/-- A shader that was taken in: its name, and what the name declared. -/
structure Taken where
  name : String
  definition : Definition

/-- The model that it declared. -/
def Taken.model? (t : Taken) : Option ShadingModel := t.definition.model

/-- The first model of a number that a list of shaders declares. -/
def firstModel? (taken : List Taken) (id : UInt32) : Option ShadingModel :=
  (taken.filterMap Taken.model?).find? fun model => model.id == id

theorem firstModel?_append (taken later : List Taken) (id : UInt32) :
    firstModel? (taken ++ later) id = (firstModel? taken id).or (firstModel? later id) := by
  rw [firstModel?, List.filterMap_append, List.find?_append]
  rfl

theorem ModelRegistry.get?_adding (r : ModelRegistry) (t : Taken) (id : UInt32) :
    (r.adding t.definition.model).get? id = (r.get? id).or (firstModel? [t] id) := by
  cases found : r.get? id with
  | some known => exact get?_adding_of_some found
  | none =>
    rw [Option.none_or]
    unfold adding firstModel? Taken.model?
    cases declared : t.definition.model with
    | none => simpa [declared] using found
    | some model =>
      by_cases same : model.id = id
      · subst same
        simp only [found, List.filterMap_cons, declared, List.filterMap_nil, List.find?_cons,
          beq_self_eq_true]
        exact OrderedMap.get?_insert_self _ _ _
      · have other : (model.id == id) = false := by simp [same]
        simp only [List.filterMap_cons, declared, List.filterMap_nil, List.find?_cons, other,
          List.find?_nil]
        split
        · exact found
        · exact (OrderedMap.get?_insert_of_ne _ (Ne.symm same) _).trans found

namespace Library

variable {l l' : Library} {h h' : Host} {taken : List Taken}

/-- A shader is held under a name. -/
def Holds (l : Library) (name : String) (shader : Shader) : Prop :=
  ∃ e, l.shaders.get? name = some e ∧ e.object.shader = shader

/-- A shader is made of what was taken in under a name. -/
def Makes (config : Config) (t : Taken) (shader : Shader) : Prop :=
  Shader.ofDefinition t.definition (t.name == config.sharedShader) config.bufferLimit = .ok shader

/-- Moves, with the shaders that they take in, in order. -/
inductive Taking (l : Library) (h : Host) : List Taken → Library → Host → Prop
  | none : Taking l h [] l h
  /-- A move that gives no number to a new shader. -/
  | pass {taken : List Taken} {l₁ l₂ : Library} {h₁ h₂ : Host} (taking : Taking l h taken l₁ h₁)
      (move : Move l₁ h₁ l₂ h₂) (same : l₂.nextShader = l₁.nextShader) : Taking l h taken l₂ h₂
  /-- A shader is taken in. -/
  | take {taken : List Taken} {l₁ : Library} {h₁ : Host} {name : String}
      {definition : Definition} {shader : Shader} (taking : Taking l h taken l₁ h₁)
      (unknown : l₁.shaders.get? name = none) (declared : l₁.Declares h₁.disk name definition)
      (made : Shader.ofDefinition definition (name == l₁.config.sharedShader)
        l₁.config.bufferLimit = .ok shader) :
      Taking l h (taken ++ [⟨name, definition⟩]) (l₁.adding name definition shader) h₁

theorem Moves.taking (moves : Moves l h l' h') : ∃ taken, Taking l h taken l' h' := by
  induction moves with
  | none => exact ⟨[], .none⟩
  | step _ move ih =>
    obtain ⟨taken, taking⟩ := ih
    cases move with
    | add unknown declared made => exact ⟨_, taking.take unknown declared made⟩
    | world builds => exact ⟨taken, taking.pass (.world builds) rfl⟩
    | turn state => exact ⟨taken, taking.pass (.turn state) rfl⟩
    | queue nodup waiting => exact ⟨taken, taking.pass (.queue nodup waiting) rfl⟩
    | rework there reworked => exact ⟨taken, taking.pass (.rework there reworked) rfl⟩
    | built there free drawable current =>
      exact ⟨taken, taking.pass (.built there free drawable current) rfl⟩
    | finish lit => exact ⟨taken, taking.pass (.finish lit) rfl⟩

namespace Taking

theorem moves (taking : Taking l h taken l' h') : Moves l h l' h' := by
  induction taking with
  | none => exact .none
  | pass _ move _ ih => exact ih.step move
  | take _ unknown declared made ih => exact ih.step (.add unknown declared made)

/-- What is taken in is what the sources say before the first of the moves: none of them
changes a source. -/
theorem declared (taking : Taking l h taken l' h') :
    ∀ t ∈ taken, l.Declared h.disk t.name t.definition := by
  induction taking with
  | none => exact fun _ mem => absurd mem List.not_mem_nil
  | pass _ _ _ ih => exact ih
  | @take taken l₁ h₁ name definition _ before _ declares _ ih =>
    intro t mem
    rcases List.mem_append.1 mem with mem | mem
    · exact ih t mem
    · obtain rfl := List.mem_singleton.1 mem
      obtain ⟨config, sources⟩ := before.moves.settings
      refine ⟨h₁.disk, before.moves.builds.files, ?_⟩
      unfold Declares at declares ⊢
      rwa [config, sources] at declares

/-- A number keeps its model, or gets the first that is taken in with it. -/
theorem get? (taking : Taking l h taken l' h') (id : UInt32) :
    l'.registry.get? id = (l.registry.get? id).or (firstModel? taken id) := by
  induction taking with
  | none => exact (Option.or_none).symm
  | pass _ move same ih =>
    cases move with
    | add _ _ _ => exact absurd same (Nat.succ_ne_self _)
    | _ => exact ih
  | @take taken l₁ h₁ name definition _ before _ _ _ ih =>
    show (l₁.registry.adding definition.model).get? id = _
    rw [firstModel?_append, ← Option.or_assoc, ← ih]
    exact ModelRegistry.get?_adding l₁.registry ⟨name, definition⟩ id

theorem holds_replacing {name other : String} {e e' : ShaderEntry} {shader : Shader}
    (there : l.shaders.get? name = some e) (same : e'.object.shader = e.object.shader)
    (holds : (l.replacing name e').Holds other shader) : l.Holds other shader := by
  obtain ⟨found, is, rfl⟩ := holds
  unfold replacing at is
  rw [OrderedMap.get?_insert] at is
  split at is
  · next eq =>
    cases is
    exact ⟨e, by rw [eq, there], same.symm⟩
  · exact ⟨found, is, rfl⟩

/-- A shader that is held was held before or was taken in. -/
theorem holds (taking : Taking l h taken l' h') {name : String} {shader : Shader}
    (held : l'.Holds name shader) :
    l.Holds name shader ∨ ∃ t ∈ taken, t.name = name ∧ Makes l.config t shader := by
  induction taking with
  | none => exact .inl held
  | pass _ move same ih =>
    refine ih ?_
    cases move with
    | add _ _ _ => exact absurd same (Nat.succ_ne_self _)
    | rework there reworked => exact holds_replacing there reworked.shader held
    | built there _ _ _ =>
      refine holds_replacing there ?_ held
      rfl
    | _ => exact held
  | @take taken l₁ h₁ taken' definition shader' before _ _ made ih =>
    obtain ⟨e, there, rfl⟩ := held
    change (l₁.shaders.insert _ _).get? name = _ at there
    rw [OrderedMap.get?_insert] at there
    split at there
    · next same =>
      cases there
      refine .inr ⟨_, List.mem_append_right _ List.mem_cons_self, same.symm, ?_⟩
      unfold Makes
      rwa [before.moves.settings.1] at made
    · refine (ih ⟨e, there, rfl⟩).imp_right fun found => ?_
      obtain ⟨t, mem, is⟩ := found
      exact ⟨t, List.mem_append_left _ mem, is⟩

end Taking

/-- What one operation does to the shaders and models of a library. -/
inductive Passage (l : Library) (h : Host) : List Taken → Library → Host → Prop
  /-- It takes shaders in, and what else it does leaves the shaders alone. -/
  | through {taken : List Taken} {l₁ l' : Library} {h₁ h' : Host}
      (taking : Taking l h taken l₁ h₁) (aside : Aside l₁ h₁ l' h') : Passage l h taken l' h'
  /-- Only the sources change, or the world. -/
  | around (sources : ShaderSources) (h' : Host) : Passage l h [] { l with sources := sources } h'
  /-- The shaders are forgotten. -/
  | forgotten {l' : Library} {h' : Host} (same : l' = { l with
      materials := .empty, shaders := .empty, pending := [], textures := l'.textures }) :
      Passage l h [] l' h'

namespace Passage

theorem declared (passage : Passage l h taken l' h') :
    ∀ t ∈ taken, l.Declared h.disk t.name t.definition := by
  cases passage with
  | through taking _ => exact taking.declared
  | around _ _ => exact fun _ mem => absurd mem List.not_mem_nil
  | forgotten _ => exact fun _ mem => absurd mem List.not_mem_nil

theorem config (passage : Passage l h taken l' h') : l'.config = l.config := by
  cases passage with
  | through taking aside => rw [aside.same]; exact taking.moves.settings.1
  | around _ _ => rfl
  | forgotten same => rw [same]

theorem get? (passage : Passage l h taken l' h') (id : UInt32) :
    l'.registry.get? id = (l.registry.get? id).or (firstModel? taken id) := by
  cases passage with
  | through taking aside => rw [aside.same]; exact taking.get? id
  | around _ _ => exact (Option.or_none).symm
  | forgotten same => rw [same]; exact (Option.or_none).symm

theorem holds (passage : Passage l h taken l' h') {name : String} {shader : Shader}
    (held : l'.Holds name shader) :
    l.Holds name shader ∨ ∃ t ∈ taken, t.name = name ∧ Makes l.config t shader := by
  cases passage with
  | through taking aside =>
    unfold Holds at held
    rw [aside.shaders] at held
    exact taking.holds held
  | around _ _ => exact .inl held
  | forgotten same =>
    obtain ⟨e, there, _⟩ := held
    rw [same] at there
    cases there

end Passage

/-- Moves, and then work that leaves the shaders alone. -/
def MovesBeside (l : Library) (h : Host) (l' : Library) (h' : Host) : Prop :=
  ∃ l₁ h₁, Moves l h l₁ h₁ ∧ Aside l₁ h₁ l' h'

namespace MovesBeside

theorem ofMoves (moves : Moves l h l' h') : MovesBeside l h l' h' := ⟨l', h', moves, .refl l' h'⟩

theorem ofAside (aside : Aside l h l' h') : MovesBeside l h l' h' := ⟨l, h, .none, aside⟩

theorem aside {l₁ : Library} {h₁ : Host} (moved : MovesBeside l h l₁ h₁)
    (aside : Aside l₁ h₁ l' h') : MovesBeside l h l' h' :=
  let ⟨l₀, h₀, moves, first⟩ := moved
  ⟨l₀, h₀, moves, first.trans aside⟩

theorem passage (moved : MovesBeside l h l' h') : ∃ taken, Passage l h taken l' h' :=
  let ⟨_, _, moves, aside⟩ := moved
  let ⟨taken, taking⟩ := moves.taking
  ⟨taken, .through taking aside⟩

end MovesBeside

theorem loadShader_moves (name : String) (sound : l.Sound h.device)
    (idle : l.registry.state = .idle) :
    Attempt.Ends (loadShader name) l h fun _ => Moves l h := by
  refine (loadShader_ends name l h sound idle).mono ?_
  rintro _ l' h' (⟨_, _, _, rfl, builds⟩ | ⟨_, loaded⟩)
  · exact (Move.world builds).moves
  · exact loaded.moves

/-- Making a material loads a shader at most. -/
theorem createMaterial_moves (name shader : String) (sound : l.Sound h.device)
    (idle : l.registry.state = .idle) :
    Attempt.Ends (createMaterial name shader) l h fun _ => MovesBeside l h :=
  createMaterial_ends name shader (fun _ _ => .ofAside (.refl l h))
    (fun _ => (loadShader_moves shader sound idle).mono fun _ _ _ => .ofMoves)
    fun aside moved => moved.aside aside

theorem loadMaterial_moves (path : String) (commands : Bool) (sound : l.Sound h.device)
    (idle : l.registry.state = .idle) :
    Attempt.Ends (loadMaterial path commands) l h fun _ => MovesBeside l h :=
  loadMaterial_rule (fun _ _ => .ofAside (.refl l h))
    (fun _ _ _ _ _ spares => .ofAside ⟨rfl, spares.device⟩)
    (fun _ _ _ _ _ => .ofAside (.refl l h))
    fun _ file _ _ _ => ofFile_ends file commands
      ((loadShader_moves file.shader sound idle).mono fun _ _ _ => .ofMoves)
      fun aside moved => moved.aside aside

end Library

/-! ## Histories of sessions -/

namespace Session

open Library

variable {s : Session} {taken : List Taken} {ops : List Operation}

/-- Every operation is a passage. -/
theorem step_passage (sound : s.Sound) (op : Operation) :
    ∃ taken, Passage s.library s.host taken (s.step op).library (s.step op).host := by
  refine (s.ends_perform op).1 (?_ : Attempt.Ends _ _ _ fun _ l' h' => ∃ taken,
    Passage s.library s.host taken l' h')
  have moved {l' : Library} {h' : Host} (moves : Moves s.library s.host l' h') :
      ∃ taken, Passage s.library s.host taken l' h' := (MovesBeside.ofMoves moves).passage
  have beside {l' : Library} {h' : Host} (aside : Aside s.library s.host l' h') :
      ∃ taken, Passage s.library s.host taken l' h' := (MovesBeside.ofAside aside).passage
  cases op with
  | world disk loader rejected policy => exact ⟨[], .around _ _⟩
  | registerSource name text => exact ⟨[], .around _ _⟩
  | registerShaders names =>
    exact .done ((registerShaders_ends names _ _ sound.idle).mono fun _ _ _ ends =>
      moved ends.1.moves)
  | registerAll =>
    exact .done ((registerAll_ends _ _ sound.idle).mono fun _ _ _ ends => moved ends.1.moves)
  | compilePending =>
    exact (compilePending_ends _ _ sound.library sound.idle).mono fun _ _ _ compiled =>
      moved compiled.moves
  | loadAll =>
    exact (loadAll_ends _ _ sound.library sound.idle).mono fun _ _ _ loaded => moved loaded.moves
  | loadShader name =>
    exact .done ((loadShader_moves name sound.library sound.idle).mono fun _ _ _ => moved)
  | regenerate =>
    exact .done ((regenerateExcept_ends [] _ _ sound.library sound.idle
      (fun _ mem => absurd mem List.not_mem_nil)).mono fun _ _ _ regenerated =>
        moved regenerated.moves)
  | createMaterial name shader =>
    exact .done ((createMaterial_moves name shader sound.library sound.idle).mono
      fun _ _ _ => MovesBeside.passage)
  | createDefaults =>
    exact .done ((createDefaults_aside sound.library.shaders_sorted).mono fun _ _ _ => beside)
  | loadMaterial path commands =>
    exact .done ((loadMaterial_moves path commands sound.library sound.idle).mono
      fun _ _ _ => MovesBeside.passage)
  | resolvePending => exact .done ((resolvePending_aside _ _).mono fun _ _ _ => beside)
  | changeMaterial name change => exact beside (changeMaterial_aside name change _ _)
  | bindMaterial name =>
    exact bindNamed_rule (fun m _ => (bindMaterial_aside name m).mono fun _ _ _ => beside)
      (beside (.refl _ _))
  | saveMaterial name path => exact (saveMaterial_aside name path).mono fun _ _ _ => beside
  | releaseTexture path =>
    exact .done ((Attempt.ends_liftWork _).2 ((releaseTexture_aside path).mono
      fun _ _ _ => beside))
  | shutdown =>
    refine (Attempt.ends_liftWork _).2 ((shutdown_ends _ _).mono fun _ l' h' ends => ?_)
    exact ⟨[], .forgotten ends.2⟩

/-- A run of operations, with the shaders that it takes in, in order. -/
inductive History : Session → List Operation → List Taken → Prop
  | nil (s : Session) : History s [] []
  | cons {s : Session} {op : Operation} {rest : List Operation} {taken later : List Taken}
      (passage : Passage s.library s.host taken (s.step op).library (s.step op).host)
      (history : History (s.step op) rest later) : History s (op :: rest) (taken ++ later)

theorem exists_history (sound : s.Sound) (ops : List Operation) : ∃ taken, History s ops taken := by
  induction ops generalizing s with
  | nil => exact ⟨[], .nil s⟩
  | cons op rest ih =>
    obtain ⟨taken, passage⟩ := step_passage sound op
    obtain ⟨later, history⟩ := ih (step_sound sound op)
    exact ⟨taken ++ later, .cons passage history⟩

namespace History

theorem config (history : History s ops taken) :
    (s.run ops).library.config = s.library.config := by
  induction history with
  | nil => rfl
  | cons passage _ ih => rw [run_cons, ih, passage.config]

/-- A number keeps its model, or gets the first that the run takes in with it. -/
theorem get? (history : History s ops taken) (id : UInt32) :
    (s.run ops).library.registry.get? id =
      (s.library.registry.get? id).or (firstModel? taken id) := by
  induction history with
  | nil => exact (Option.or_none).symm
  | cons passage _ ih => rw [run_cons, ih, passage.get?, Option.or_assoc, firstModel?_append]

/-- A shader that is held was held before or was taken in. -/
theorem holds (history : History s ops taken) {name : String} {shader : Shader}
    (held : (s.run ops).library.Holds name shader) :
    s.library.Holds name shader ∨ ∃ t ∈ taken, t.name = name ∧ Makes s.library.config t shader := by
  induction history with
  | nil => exact .inl held
  | cons passage _ ih =>
    rw [run_cons] at held
    rcases ih held with before | ⟨t, mem, is, made⟩
    · refine (passage.holds before).imp_right fun found => ?_
      obtain ⟨t, mem, is⟩ := found
      exact ⟨t, List.mem_append_left _ mem, is⟩
    · rw [passage.config] at made
      exact .inr ⟨t, List.mem_append_right _ mem, is, made⟩

/-- What was taken in was declared when one of the operations began. -/
theorem declared (history : History s ops taken) :
    ∀ t ∈ taken, ∃ before op after, ops = before ++ op :: after ∧
      (s.run before).library.Declared (s.run before).host.disk t.name t.definition := by
  induction history with
  | nil => exact fun _ mem => absurd mem List.not_mem_nil
  | @cons s op rest _ _ passage _ ih =>
    intro t mem
    rcases List.mem_append.1 mem with mem | mem
    · exact ⟨[], op, rest, rfl, passage.declared t mem⟩
    · obtain ⟨before, op', after, split, declared⟩ := ih t mem
      exact ⟨op :: before, op', after, by rw [split, List.cons_append], declared⟩

end History

section

variable {config : Config} {texts : OrderedMap String String} {loader : Loader} {disk : Disk}

/-- A new library has registered the first models of its history. -/
theorem get?_of_start (history : History (start config texts loader disk) ops taken)
    (id : UInt32) : ((start config texts loader disk).run ops).library.registry.get? id =
      firstModel? taken id :=
  (history.get? id).trans (Option.none_or)

/-- A shader that a new library came to hold was taken in, and one of the operations read it. -/
theorem holds_of_start (history : History (start config texts loader disk) ops taken)
    {name : String} {shader : Shader}
    (held : ((start config texts loader disk).run ops).library.Holds name shader) :
    ∃ t ∈ taken, t.name = name ∧ Makes config t shader := by
  refine (history.holds held).resolve_left ?_
  rintro ⟨e, there, _⟩
  cases there

end

end Session

end SurfaceShading
