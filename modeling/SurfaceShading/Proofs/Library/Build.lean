/-
  Building shaders. A build works on the entry of one shader alone, and only one that does not
  fail makes it count as built (`buildShader_ends`). A list of shaders is built in order up to
  the first failure, and the shaders after that one are pending again (`buildAll_ends`).
-/
import SurfaceShading.Proofs.Library.Sound

namespace SurfaceShading

/-- A shader that counts as built, with every pass current and every pipeline made. -/
structure ShaderEntry.Finished (e : ShaderEntry) (models : List ShadingModel)
    (options : SourceOptions) : Prop where
  built : e.built = true
  drawable : e.object.Drawable
  current : ∀ index < e.object.shader.passCount, e.object.Current models options index

theorem ShaderEntry.Finished.lit {e : ShaderEntry} {models : List ShadingModel}
    {options : SourceOptions} (finished : e.Finished models options) :
    e.object.Lit models options := fun index mem =>
  finished.current index (Shader.lt_passCount_of_mem_lightingPasses mem)

namespace Library

variable {l : Library} {h : Host}

/-! ## The entry of one shader -/

@[simp] theorem get?_replacing_self (l : Library) (name : String) (e : ShaderEntry) :
    (l.replacing name e).shaders.get? name = some e := OrderedMap.get?_insert_self _ _ _

theorem get?_replacing_of_ne (l : Library) {name other : String} (ne : other ≠ name)
    (e : ShaderEntry) : (l.replacing name e).shaders.get? other = l.shaders.get? other :=
  OrderedMap.get?_insert_of_ne _ ne _

theorem ends_onShader {α : Type} {name : String} {e : ShaderEntry}
    (there : l.shaders.get? name = some e) (none : α) (attempt : Attempt ShaderObject α)
    {post : Except Error α → Library → Host → Prop} :
    Attempt.Ends (onShader name none attempt) l h post ↔
      Attempt.Ends attempt e.object h fun r o h' =>
        post r (l.replacing name { e with object := o }) h' := by
  unfold onShader
  rw [Attempt.ends_mk, Work.ends_bind, Work.ends_get, there]
  exact Iff.rfl

theorem ends_onShader_of_unknown {α : Type} {name : String}
    (unknown : l.shaders.get? name = none) (none : α) (attempt : Attempt ShaderObject α)
    {post : Except Error α → Library → Host → Prop} :
    Attempt.Ends (onShader name none attempt) l h post ↔ post (.ok none) l h := by
  unfold onShader
  rw [Attempt.ends_mk, Work.ends_bind, Work.ends_get, unknown]
  exact Iff.rfl

/-- What every number of moves leaves of an entry: the shader of the same object, and that it
was built. -/
theorem Moves.entry {l' : Library} {h' : Host} (moves : Moves l h l' h') {name : String}
    {e : ShaderEntry} (there : l.shaders.get? name = some e) :
    ∃ e', l'.shaders.get? name = some e' ∧ e'.object.id = e.object.id ∧
      e'.object.shader = e.object.shader ∧ (e.built = true → e'.built = true) := by
  refine Moves.preserve (I := fun l _ => ∃ e', l.shaders.get? name = some e' ∧
    e'.object.id = e.object.id ∧ e'.object.shader = e.object.shader ∧
    (e.built = true → e'.built = true)) ?_ moves ⟨e, there, rfl, rfl, id⟩
  rintro l h l' h' move ⟨e₁, there₁, sameId, same, built⟩
  cases move with
  | world _ => exact ⟨e₁, there₁, sameId, same, built⟩
  | turn _ => exact ⟨e₁, there₁, sameId, same, built⟩
  | queue _ _ => exact ⟨e₁, there₁, sameId, same, built⟩
  | finish _ => exact ⟨e₁, there₁, sameId, same, built⟩
  | @add other _ _ unknown _ _ =>
    have ne : name ≠ other := fun eq => by rw [← eq, there₁] at unknown; cases unknown
    exact ⟨e₁, (OrderedMap.get?_insert_of_ne _ ne _).trans there₁, sameId, same, built⟩
  | @rework _ other e₂ o there₂ reworked =>
    by_cases eq : name = other
    · subst eq
      rw [there₁] at there₂
      cases there₂
      exact ⟨_, get?_replacing_self .., reworked.id.trans sameId, reworked.shader.trans same,
        built⟩
    · exact ⟨e₁, (get?_replacing_of_ne _ eq _).trans there₁, sameId, same, built⟩
  | @built other e₂ there₂ _ _ _ =>
    by_cases eq : name = other
    · subst eq
      rw [there₁] at there₂
      cases there₂
      exact ⟨_, get?_replacing_self .., sameId, same, fun _ => rfl⟩
    · exact ⟨e₁, (get?_replacing_of_ne _ eq _).trans there₁, sameId, same, built⟩

/-! ## One shader -/

/-- A build touches one entry. It counts as built afterwards if the build did not fail, and if
it did, as much as before. -/
theorem buildShader_ends (name : String) (sound : l.Sound h.device) (free : name ∉ l.pending)
    {e : ShaderEntry} (there : l.shaders.get? name = some e) :
    Attempt.Ends (buildShader name) l h fun r l' h' => Moves l h l' h' ∧
      l' = { l with shaders := l'.shaders } ∧ SameBut [name] l l' ∧
      ∃ e', l'.shaders.get? name = some e' ∧
        (r = .ok () → e'.Finished l.registry.models l.config.sourceOptions) ∧
        (∀ error, r = .error error → e'.built = e.built) := by
  simp only [buildShader, Attempt.ends_bind, Attempt.ends_get, Attempt.after_ok]
  rw [ends_onShader there]
  refine (ShaderObject.build_ends e.object h (sound.entry there).fits).mono ?_
  rintro r o h' ⟨reworked, finished⟩
  have moved := (Move.rework (l := l) there reworked).moves
  have others (other : String) (notMem : other ∉ [name]) :
      (l.replacing name { e with object := o }).shaders.get? other = l.shaders.get? other :=
    get?_replacing_of_ne _ (fun eq => notMem (List.mem_singleton.2 eq)) _
  cases r with
  | error err =>
    refine ⟨moved, rfl, others, _, get?_replacing_self .., fun eq => ?_, fun _ _ => rfl⟩
    cases eq
  | ok _ =>
    obtain ⟨drawable, current⟩ := finished rfl
    have marked : Move _ h' _ h' :=
      .built (get?_replacing_self l name { e with object := o }) free drawable current
    simp only [markBuilt, Attempt.after_ok, Attempt.ends_modify, get?_replacing_self]
    refine ⟨moved.trans marked.moves, rfl, fun other notMem => ?_, _, get?_replacing_self ..,
      fun _ => ⟨rfl, drawable, current⟩, fun error eq => ?_⟩
    · have ne : other ≠ name := fun eq => notMem (List.mem_singleton.2 eq)
      exact (get?_replacing_of_ne _ ne _).trans (others other notMem)
    · cases eq

/-! ## Pending shaders -/

/-- Some shaders are known and not built. -/
def Waiting (l : Library) (names : List String) : Prop :=
  ∀ name ∈ names, ∃ e, l.shaders.get? name = some e ∧ e.built = false

/-- Some shaders are built, with every pass current and every pipeline made. -/
def AllFinished (l : Library) (names : List String) (models : List ShadingModel)
    (options : SourceOptions) : Prop :=
  ∀ name ∈ names, ∃ e, l.shaders.get? name = some e ∧ e.Finished models options

theorem Waiting.congr {l' : Library} {names : List String} (waiting : l.Waiting names)
    (same : ∀ name ∈ names, l'.shaders.get? name = l.shaders.get? name) : l'.Waiting names :=
  fun name mem => by rw [same name mem]; exact waiting name mem

theorem AllFinished.cons {name : String} {names : List String} {models : List ShadingModel}
    {options : SourceOptions} {e : ShaderEntry} (there : l.shaders.get? name = some e)
    (finished : e.Finished models options) (all : l.AllFinished names models options) :
    l.AllFinished (name :: names) models options := by
  intro other mem
  rcases List.mem_cons.1 mem with rfl | mem
  · exact ⟨e, there, finished⟩
  · exact all other mem

/-- How building a list of shaders in order ends. Either all of them are finished, or one fails:
then those before it are finished, it is not built, and those after it are pending and as they
were. -/
inductive BuildsEnd (names : List String) (l : Library) : Except Error Unit → Library → Prop where
  | all {l' : Library} (empty : l'.pending = [])
      (finished : l'.AllFinished names l.registry.models l.config.sourceOptions) :
      BuildsEnd names l (.ok ()) l'
  | failed {l' : Library} {error : Error} (done : List String) (bad : String)
      (rest : List String) (eq : names = done ++ bad :: rest) (pending : l'.pending = rest)
      (finished : l'.AllFinished done l.registry.models l.config.sourceOptions)
      (waits : l'.Waiting [bad])
      (untouched : ∀ name ∈ rest, l'.shaders.get? name = l.shaders.get? name) :
      BuildsEnd names l (.error error) l'

/-- What building a list of shaders in order comes to. No other shader is touched. -/
structure BuiltAll (names : List String) (l : Library) (h : Host) (r : Except Error Unit)
    (l' : Library) (h' : Host) : Prop where
  moves : Moves l h l' h'
  same : l' = { l with shaders := l'.shaders, pending := l'.pending }
  others : SameBut names l l'
  ends : BuildsEnd names l r l'

/-- A shader was finished first, and then the others were built. -/
theorem BuildsEnd.cons {name : String} {rest : List String} {l₁ l' : Library}
    {r : Except Error Unit} {e : ShaderEntry} (registry : l₁.registry = l.registry)
    (config : l₁.config = l.config) (there' : l'.shaders.get? name = some e)
    (finished : e.Finished l.registry.models l.config.sourceOptions)
    (untouched : ∀ other ∈ rest, l₁.shaders.get? other = l.shaders.get? other)
    (ends : BuildsEnd rest l₁ r l') : BuildsEnd (name :: rest) l r l' := by
  cases ends with
  | all empty all =>
    rw [registry, config] at all
    exact .all empty (.cons there' finished all)
  | failed done bad left eq pending all waits same =>
    rw [registry, config] at all
    refine .failed (name :: done) bad left (by rw [eq]; rfl) pending (.cons there' finished all)
      waits fun other mem => ?_
    have inRest : other ∈ rest := by
      rw [eq]
      exact List.mem_append_right _ (List.mem_cons_of_mem bad mem)
    rw [same other mem, untouched other inRest]

theorem buildAll_ends (names : List String) (l : Library) (h : Host) (sound : l.Sound h.device)
    (empty : l.pending = []) (nodup : names.Nodup) (waiting : l.Waiting names) :
    Attempt.Ends (buildAll names) l h (BuiltAll names l h) := by
  induction names generalizing l h with
  | nil =>
    exact ⟨.none, rfl, .refl _ _, .all empty fun _ mem => absurd mem List.not_mem_nil⟩
  | cons name rest ih =>
    obtain ⟨fresh, nodup⟩ := List.nodup_cons.1 nodup
    obtain ⟨e, there, unbuilt⟩ := waiting name List.mem_cons_self
    have free : name ∉ l.pending := by rw [empty]; exact List.not_mem_nil
    unfold buildAll
    rw [Attempt.ends_bind, Attempt.ends_liftWork, Work.ends_run]
    refine (buildShader_ends name sound free there).mono fun r l₁ h₁ ends => ?_
    obtain ⟨moves, same, others, e₁, there₁, finished, failed⟩ := ends
    have empty₁ : l₁.pending = [] := by rw [same]; exact empty
    have untouched (other : String) (mem : other ∈ rest) :
        l₁.shaders.get? other = l.shaders.get? other :=
      others other fun eq => fresh (List.mem_singleton.1 eq ▸ mem)
    have waiting₁ : l₁.Waiting rest :=
      Waiting.congr (fun other mem => waiting other (List.mem_cons_of_mem name mem)) untouched
    rw [Attempt.after_ok]
    cases r with
    | ok _ =>
      have registry : l₁.registry = l.registry := by rw [same]
      have config : l₁.config = l.config := by rw [same]
      refine (ih l₁ h₁ (moves.sound sound) empty₁ nodup waiting₁).mono fun r l' h' ends => ?_
      obtain ⟨moves', same', others', ends⟩ := ends
      have there' : l'.shaders.get? name = some e₁ := (others' name fresh).trans there₁
      exact ⟨moves.trans moves', same'.trans (by rw [same]), others.cons others',
        ends.cons registry config there' (finished rfl) untouched⟩
    | error err =>
      have queued : Move l₁ h₁ { l₁ with pending := rest } h₁ := .queue nodup waiting₁
      simp only [Attempt.ends_bind, Attempt.ends_modify, Attempt.after_ok, Attempt.ends_throw]
      refine ⟨moves.trans queued.moves, by rw [same], others.cons (.refl rest _),
        .failed [] name rest rfl rfl (fun _ mem => absurd mem List.not_mem_nil) ?_ untouched⟩
      intro other mem
      rw [List.mem_singleton.1 mem]
      exact ⟨e₁, there₁, (failed err rfl).trans unbuilt⟩

/-- A shader that a list of builds did not leave finished is not built, or it was no other
before. -/
theorem BuiltAll.entry {names : List String} {l l' : Library} {h h' : Host}
    {r : Except Error Unit} (all : BuiltAll names l h r l' h') {name : String} {e : ShaderEntry}
    (there : l'.shaders.get? name = some e) :
    e.Finished l.registry.models l.config.sourceOptions ∨ e.built = false ∨
      l.shaders.get? name = some e := by
  have finished {done : List String} (mem : name ∈ done)
      (all : l'.AllFinished done l.registry.models l.config.sourceOptions) :
      e.Finished l.registry.models l.config.sourceOptions := by
    obtain ⟨e', there', finished⟩ := all name mem
    cases there.symm.trans there'
    exact finished
  by_cases mem : name ∈ names
  · cases all.ends with
    | all _ done => exact .inl (finished mem done)
    | failed done bad rest eq _ all waits same =>
      rw [eq] at mem
      rcases List.mem_append.1 mem with mem | mem
      · exact .inl (finished mem all)
      · rcases List.mem_cons.1 mem with rfl | mem
        · obtain ⟨e', there', unbuilt⟩ := waits name List.mem_cons_self
          cases there.symm.trans there'
          exact .inr (.inl unbuilt)
        · exact .inr (.inr ((same name mem).symm.trans there))
  · exact .inr (.inr ((all.others name mem).symm.trans there))

/-! ## The order of builds -/

theorem mem_buildOrder {shared : String} {names : List String} {name : String} :
    name ∈ buildOrder shared names ↔ name ∈ names := by
  unfold buildOrder
  simp only [List.mem_append, List.mem_filter, decide_eq_true_eq]
  by_cases eq : name = shared <;> simp [eq]

theorem nodup_buildOrder {shared : String} {names : List String} (nodup : names.Nodup) :
    (buildOrder shared names).Nodup := by
  refine List.nodup_append.2 ⟨nodup.filter _, nodup.filter _, ?_⟩
  rintro a mem b mem' rfl
  have ne := (List.mem_filter.1 mem).2
  have eq := (List.mem_filter.1 mem').2
  simp only [decide_eq_true_eq] at ne eq
  exact ne eq

end Library

end SurfaceShading
