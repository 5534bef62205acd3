/-
  Reading and registering shaders. A name that is known changes nothing; one that is not either
  fails, and then nothing of the library has changed, or adds one pending shader with its
  model. So a registration, finished or not, keeps every shader it found, and whatever it added
  is pending (`Gathered`).
-/
import SurfaceShading.Proofs.Library.Moves
import SurfaceShading.Proofs.World.Shaders

namespace SurfaceShading

theorem Work.ends_forM {σ β : Type} {f : β → Work σ PUnit}
    (same : ∀ b s h, Work.Ends (f b) s h fun _ s' _ => s' = s) (l : List β) (s : σ) (h : Host) :
    Work.Ends (l.forM f) s h fun _ s' _ => s' = s := by
  induction l generalizing h with
  | nil => rfl
  | cons b rest ih =>
    refine (Work.ends_bind _ _).2 ((same b s h).mono fun _ s' h' eq => ?_)
    subst eq
    exact ih h'

namespace Library

variable {l : Library} {h : Host}

theorem readDefinition_ends (name : String) (l : Library) (h : Host) :
    Attempt.Ends (readDefinition name) l h fun r l' _ => l' = l ∧
      ∀ definition, r = .ok definition → l.Declares h.disk name definition := by
  simp only [readDefinition, Attempt.ends_bind, Attempt.ends_get, Attempt.after_ok,
    Attempt.ends_getHost]
  split
  · exact ⟨rfl, nofun⟩
  · next text read =>
    simp only [Attempt.ends_bind, Attempt.ends_liftHost]
    refine .of_forall fun _ h' => ?_
    rw [Attempt.after_ok]
    split
    · simp only [Attempt.ends_bind, Attempt.ends_liftHost]
      exact .of_forall fun _ _ => ⟨rfl, nofun⟩
    · next definition result =>
      refine ⟨rfl, fun other eq => ?_⟩
      cases eq
      exact ⟨text, read, result⟩

theorem removeLightingArtifacts_ends (l : Library) (h : Host) :
    Work.Ends removeLightingArtifacts l h fun _ l' _ => l' = l := by
  simp only [removeLightingArtifacts, Work.ends_bind, Work.ends_get]
  split
  · rfl
  · exact Work.ends_forM (fun e s h => (Work.ends_lift _).2 (.of_forall fun _ _ => rfl)) _ l h

/-- While the registry is not closed, registering a model does not fail. -/
theorem registerModel_ends (model : ShadingModel) (isOpen : l.registry.state ≠ .regenerating) :
    Attempt.Ends (registerModel model) l h fun r l' _ => r = .ok () ∧
      l' = { l with registry := l.registry.adding (some model) } := by
  simp only [registerModel, Attempt.ends_bind, Attempt.ends_get, Attempt.after_ok,
    Attempt.ends_liftHost]
  refine .of_forall fun _ h' => ?_
  unfold ModelRegistry.register ModelRegistry.adding
  rw [if_neg isOpen]
  dsimp only
  cases l.registry.get? model.id with
  | some known => exact ⟨rfl, rfl⟩
  | none =>
    dsimp only
    rw [Attempt.ends_bind, Attempt.ends_set, Attempt.after_ok, if_pos rfl, Attempt.ends_liftWork]
    exact (removeLightingArtifacts_ends _ h').mono fun _ _ _ eq => ⟨rfl, eq⟩

/-- How taking in a shader ends: added to the library, or with an error and the library as it
was. -/
inductive ShaderAdded (name : String) (definition : Definition) (l : Library) :
    Except Error Unit → Library → Prop where
  | added {shader : Shader} (made : Shader.ofDefinition definition
      (name == l.config.sharedShader) l.config.bufferLimit = .ok shader) :
      ShaderAdded name definition l (.ok ()) (l.adding name definition shader)
  | failed {e : Error} : ShaderAdded name definition l (.error e) l

theorem addShader_ends (name : String) (definition : Definition)
    (isOpen : l.registry.state ≠ .regenerating) :
    Attempt.Ends (addShader name definition) l h fun r l' _ =>
      ShaderAdded name definition l r l' := by
  unfold addShader
  rw [Attempt.ends_bind, Attempt.ends_get, Attempt.after_ok]
  refine .afterReport fun h => .afterHost fun h => ?_
  rw [Attempt.ends_bind, Attempt.ends_ofExcept]
  cases made : Shader.ofDefinition definition (name == l.config.sharedShader)
    l.config.bufferLimit with
  | error e => exact .failed
  | ok shader =>
    have added : ShaderAdded name definition l (.ok ()) (l.adding name definition shader) :=
      .added made
    rw [Attempt.after_ok]
    unfold Library.adding at added
    cases declared : definition.model with
    | some model =>
      rw [declared] at added
      refine (registerModel_ends model isOpen).bind ?_ ?_
      · rintro _ l' h' ⟨_, rfl⟩
        exact .afterHost fun _ => added
      · rintro _ _ _ ⟨eq, _⟩
        cases eq
    | none =>
      rw [declared] at added
      exact .afterHost fun _ => added

/-- A shader is in the library, built or not. -/
def Knows (l : Library) (name : String) : Prop := ∃ e, l.shaders.get? name = some e

theorem shader?_isNone {l : Library} {name : String} :
    (l.shader? name).isNone = true ↔ l.shaders.get? name = none := by
  unfold shader?
  rw [Option.isNone_map, Option.isNone_iff_eq_none]

/-- How ensuring a shader ends: a known one is left, an unknown one is taken in as it is
declared, and a failure changes nothing. -/
inductive Ensured (name : String) (l : Library) (h : Host) : Except Error Unit → Library → Prop where
  | known (knows : l.Knows name) : Ensured name l h (.ok ()) l
  | added {definition : Definition} {shader : Shader} (unknown : l.shaders.get? name = none)
      (declared : l.Declares h.disk name definition)
      (made : Shader.ofDefinition definition (name == l.config.sharedShader)
        l.config.bufferLimit = .ok shader) :
      Ensured name l h (.ok ()) (l.adding name definition shader)
  | failed {e : Error} : Ensured name l h (.error e) l

theorem ensureShader_ends (name : String) (isOpen : l.registry.state ≠ .regenerating) :
    Attempt.Ends (ensureShader name) l h fun r l' _ => Ensured name l h r l' := by
  unfold ensureShader
  rw [Attempt.ends_bind, Attempt.ends_get, Attempt.after_ok]
  split
  · next none =>
    have unknown := shader?_isNone.1 none
    refine (readDefinition_ends name l h).bind ?_ ?_
    · rintro definition l' h' ⟨rfl, declared⟩
      refine (addShader_ends name definition isOpen).mono fun r l'' h'' ends => ?_
      cases ends with
      | added made => exact .added unknown (declared definition rfl) made
      | failed => exact .failed
    · rintro e l' h' ⟨rfl, _⟩
      exact .failed
  · next known =>
    refine .known ?_
    cases there : l.shaders.get? name with
    | none => exact absurd (shader?_isNone.2 there) known
    | some e => exact ⟨e, there⟩

/-- What a registration, finished or not, makes of a library. -/
structure Gathered (l : Library) (h : Host) (l' : Library) (h' : Host) : Prop where
  moves : Moves l h l' h'
  world : h.Builds h'
  config : l'.config = l.config
  sources : l'.sources = l.sources
  state : l'.registry.state = l.registry.state
  kept : ∀ {name e}, l.shaders.get? name = some e → l'.shaders.get? name = some e
  added : ∀ {name e}, l'.shaders.get? name = some e → l.shaders.get? name = some e ∨
    (l.shaders.get? name = none ∧ e.built = false ∧ name ∈ l'.pending)
  queued : ∀ name ∈ l.pending, name ∈ l'.pending
  fresh : ∀ name ∈ l'.pending, name ∈ l.pending ∨ l.shaders.get? name = none
  dirty : l'.registry.dirty = true → l.registry.dirty = true ∨ l'.pending ≠ []

namespace Gathered

theorem refl {l : Library} {h h' : Host} (world : h.Builds h') : Gathered l h l h' :=
  ⟨(Move.world world).moves, world, rfl, rfl, rfl, id, .inl, fun _ mem => mem, fun _ => .inl,
    .inl⟩

theorem trans {l l₁ l₂ : Library} {h h₁ h₂ : Host} (first : Gathered l h l₁ h₁)
    (second : Gathered l₁ h₁ l₂ h₂) : Gathered l h l₂ h₂ where
  moves := first.moves.trans second.moves
  world := first.world.trans second.world
  config := second.config.trans first.config
  sources := second.sources.trans first.sources
  state := second.state.trans first.state
  kept there := second.kept (first.kept there)
  added {name e} there := by
    rcases second.added there with there₁ | ⟨unknown₁, unbuilt, queued⟩
    · rcases first.added there₁ with old | ⟨unknown, unbuilt, queued⟩
      · exact .inl old
      · exact .inr ⟨unknown, unbuilt, second.queued name queued⟩
    · refine .inr ⟨?_, unbuilt, queued⟩
      cases old : l.shaders.get? name with
      | none => rfl
      | some e => rw [first.kept old] at unknown₁; cases unknown₁
  queued name mem := second.queued name (first.queued name mem)
  fresh name mem := by
    rcases second.fresh name mem with mem₁ | unknown₁
    · exact first.fresh name mem₁
    · refine .inr ?_
      cases old : l.shaders.get? name with
      | none => rfl
      | some e => rw [first.kept old] at unknown₁; cases unknown₁
  dirty dirty := by
    rcases second.dirty dirty with dirty₁ | nonempty
    · refine (first.dirty dirty₁).imp id fun nonempty empty => ?_
      obtain ⟨name, mem⟩ := List.exists_mem_of_ne_nil _ nonempty
      have mem := second.queued name mem
      rw [empty] at mem
      cases mem
    · exact .inr nonempty

theorem adding {l : Library} {h h' : Host} {name : String} {definition : Definition}
    {shader : Shader} (world : h.Builds h') (unknown : l.shaders.get? name = none)
    (declared : l.Declares h.disk name definition)
    (made : Shader.ofDefinition definition (name == l.config.sharedShader)
      l.config.bufferLimit = .ok shader) :
    Gathered l h (l.adding name definition shader) h' where
  moves := (Move.add unknown declared made).moves.trans (Move.world world).moves
  world := world
  config := rfl
  sources := rfl
  state := l.registry.adding_state definition.model
  kept {other e} there := by
    have ne : other ≠ name := fun same => by rw [same, unknown] at there; cases there
    exact (OrderedMap.get?_insert_of_ne _ ne _).trans there
  added {other e} there := by
    unfold Library.adding at there
    rw [OrderedMap.get?_insert] at there
    split at there
    · next same =>
      cases there
      exact .inr ⟨same ▸ unknown, rfl, same ▸ List.mem_append_right _ List.mem_cons_self⟩
    · exact .inl there
  queued other mem := List.mem_append_left _ mem
  fresh other mem := by
    refine (List.mem_append.1 mem).imp id fun mem => ?_
    rw [List.mem_singleton.1 mem]
    exact unknown
  dirty _ := .inr (List.append_ne_nil_of_right_ne_nil _ (List.cons_ne_nil name []))

theorem knows {l l' : Library} {h h' : Host} (gathered : Gathered l h l' h') {name : String}
    (knows : l.Knows name) : l'.Knows name :=
  let ⟨e, there⟩ := knows
  ⟨e, gathered.kept there⟩

end Gathered

/-- Ensuring one shader touches no other. -/
theorem ensureShader_gathers (name : String) (isOpen : l.registry.state ≠ .regenerating) :
    Attempt.Ends (ensureShader name) l h fun r l' h' => Gathered l h l' h' ∧
      (r = .ok () → l'.Knows name) ∧
      SameBut [name] l l' ∧ l'.pending.filter (· ≠ name) = l.pending.filter (· ≠ name) := by
  refine ((ensureShader_ends name isOpen).and (ensureShader_keeps name l h)).mono ?_
  rintro r l' h' ⟨ends, world⟩
  cases ends with
  | known knows => exact ⟨.refl world.toBuilds, fun _ => knows, .refl _ _, rfl⟩
  | added unknown declared made =>
    refine ⟨.adding world.toBuilds unknown declared made,
      fun _ => ⟨_, OrderedMap.get?_insert_self _ _ _⟩,
      fun other notMem => OrderedMap.get?_insert_of_ne _ (mt List.mem_singleton.2 notMem) _, ?_⟩
    show (l.pending ++ [name]).filter (· ≠ name) = l.pending.filter (· ≠ name)
    rw [List.filter_append, List.filter_cons_of_neg (by simp), List.filter_nil, List.append_nil]
  | failed => exact ⟨.refl world.toBuilds, nofun, .refl _ _, rfl⟩

theorem ensureShaders_ends (names : List String) (l : Library) (h : Host)
    (isOpen : l.registry.state ≠ .regenerating) :
    Attempt.Ends (ensureShaders names) l h fun r l' h' => Gathered l h l' h' ∧
      SameBut names l l' ∧ ∀ n, r = .ok n → ∀ name ∈ names, l'.Knows name := by
  induction names generalizing l h with
  | nil =>
    exact ⟨.refl ⟨.refl _, .refl _, .refl _⟩, .refl _ _, fun _ _ _ mem => absurd mem List.not_mem_nil⟩
  | cons name rest ih =>
    unfold ensureShaders
    refine (ensureShader_gathers name isOpen).bind ?_ ?_
    · rintro _ l₁ h₁ ⟨gathered, knows, others, _⟩
      refine (ih l₁ h₁ (gathered.state ▸ isOpen)).bind ?_ ?_
      · rintro n l₂ h₂ ⟨gathered', others', all⟩
        refine ⟨gathered.trans gathered', others.cons others', fun _ _ other mem => ?_⟩
        rcases List.mem_cons.1 mem with rfl | mem
        · exact gathered'.knows (knows rfl)
        · exact all n rfl other mem
      · rintro e l₂ h₂ ⟨gathered', others', _⟩
        exact ⟨gathered.trans gathered', others.cons others', nofun⟩
    · rintro e l₁ h₁ ⟨gathered, _, others, _⟩
      exact ⟨gathered, others.cons (.refl rest l₁), nofun⟩

/-- A registration that was opened for the purpose, and closed again. -/
theorem Gathered.turned {l l' : Library} {h h' : Host} {opened : RegistryState}
    (gathered : Gathered (l.turned opened) h l' h') :
    Gathered l h (l'.turned l.registry.state) h' where
  moves := (Move.turn opened).moves.trans
    (gathered.moves.trans (Move.turn l.registry.state).moves)
  world := gathered.world
  config := gathered.config
  sources := gathered.sources
  state := rfl
  kept := gathered.kept
  added := gathered.added
  queued := gathered.queued
  fresh := gathered.fresh
  dirty := gathered.dirty

/-- Registering shaders leaves the registry idle and all other shaders alone, and when it does
not fail all of them are known. -/
theorem registerShaders_ends (names : List String) (l : Library) (h : Host)
    (idle : l.registry.state = .idle) :
    Attempt.Ends (registerShaders names) l h fun r l' h' => Gathered l h l' h' ∧
      SameBut names l l' ∧ ∀ n, r = .ok n → ∀ name ∈ names, l'.Knows name := by
  simp only [registerShaders, onRegistry, ModelRegistry.beginRegistration, idle,
    Attempt.ends_bind, Attempt.ends_get, Attempt.after_ok, Attempt.ends_modify,
    Attempt.ends_liftWork, Work.ends_run, Attempt.ends_ofExcept]
  have isOpen : RegistryState.registering ≠ .regenerating := by decide
  refine (ensureShaders_ends names _ h isOpen).mono fun r l' h' ⟨gathered, others, all⟩ => ?_
  have closed : l'.registry.endRegistration =
      { l'.registry with state := l.registry.state } := by
    rw [ModelRegistry.endRegistration, if_pos gathered.state, idle]
  rw [closed]
  exact ⟨gathered.turned, others, all⟩

theorem registerAll_ends (l : Library) (h : Host) (idle : l.registry.state = .idle) :
    Attempt.Ends registerAll l h fun r l' h' => Gathered l h l' h' ∧
      ∀ n, r = .ok n → ∀ name ∈ l.sources.names h.disk, l'.Knows name := by
  simp only [registerAll, Attempt.ends_bind, Attempt.ends_get, Attempt.ends_getHost,
    Attempt.after_ok]
  exact (registerShaders_ends _ l h idle).mono fun _ _ _ ⟨gathered, _, all⟩ => ⟨gathered, all⟩

end Library

end SurfaceShading
