/-
  The moves of a library. Whatever is asked of it about shaders, a library changes by a few
  kinds of moves alone: it takes a shader in, works on the passes of one, counts one as built,
  opens or closes its registry, declares the lighting passes up to date, or sorts its pending
  list. `Moves` is any number of them. What every move preserves, every such operation does,
  finished or not (`Sound` is the invariant that all else rests on).

  The guards of a move say when it is made: a shader counts as built only once every pass is
  current and has a pipeline, and lighting is declared up to date only if it is.
-/
import SurfaceShading.Library
import SurfaceShading.Proofs.OrderedMap
import SurfaceShading.Proofs.Passes

namespace SurfaceShading

/-- Every lighting pass is compiled for the given models. -/
def ShaderObject.Lit (o : ShaderObject) (models : List ShadingModel) (options : SourceOptions) :
    Prop := ∀ index ∈ o.shader.lightingPasses, o.Current models options index

/-- The registry after a shader that declares a model, or none, was taken in. -/
def ModelRegistry.adding (r : ModelRegistry) : Option ShadingModel → ModelRegistry
  | none => r
  | some model =>
    match r.get? model.id with
    | some _ => r
    | none => { r with entries := r.entries.insert model.id model, dirty := true }

theorem ModelRegistry.adding_state (r : ModelRegistry) (model? : Option ShadingModel) :
    (r.adding model?).state = r.state := by
  unfold adding
  cases model? with
  | none => rfl
  | some model => dsimp only; split <;> rfl

namespace Library

/-- What the sources say that a name declares. -/
def Declares (l : Library) (disk : Disk) (name : String) (definition : Definition) : Prop :=
  ∃ text, l.sources.read disk name = .ok text ∧
    (Definition.parseComplete text l.config.sharedShader
      (l.sources.read disk l.config.sharedShader)).result = .ok definition

/-- The library with one more shader, pending. -/
def adding (l : Library) (name : String) (definition : Definition) (shader : Shader) : Library :=
  { l with
    registry := l.registry.adding definition.model
    shaders := l.shaders.insert name ⟨.new l.nextShader shader, false⟩
    nextShader := l.nextShader + 1
    pending := l.pending ++ [name] }

/-- The library with another entry for a shader. -/
def replacing (l : Library) (name : String) (e : ShaderEntry) : Library :=
  { l with shaders := l.shaders.insert name e }

/-- The library with its registry in another state. -/
def turned (l : Library) (state : RegistryState) : Library :=
  { l with registry := { l.registry with state := state } }

/-- The library with its registry dirty or not. -/
def marked (l : Library) (dirty : Bool) : Library :=
  { l with registry := { l.registry with dirty := dirty } }

/-- The entries of all shaders but some are the same. -/
def SameBut (names : List String) (l l' : Library) : Prop :=
  ∀ other, other ∉ names → l'.shaders.get? other = l.shaders.get? other

theorem SameBut.refl (names : List String) (l : Library) : SameBut names l l := fun _ _ => rfl

theorem SameBut.cons {name : String} {rest : List String} {l l₁ l₂ : Library}
    (first : SameBut [name] l l₁) (second : SameBut rest l₁ l₂) :
    SameBut (name :: rest) l l₂ := by
  intro other notMem
  obtain ⟨ne, notRest⟩ := not_or.1 (mt List.mem_cons.2 notMem)
  rw [second other notRest, first other (mt List.mem_singleton.1 ne)]

/-- One move of a library in the world. -/
inductive Move : Library → Host → Library → Host → Prop
  /-- Only the world changes. -/
  | world {l : Library} {h h' : Host} (builds : h.Builds h') : Move l h l h'
  /-- The registry is opened or closed. -/
  | turn {l : Library} {h : Host} (state : RegistryState) : Move l h (l.turned state) h
  /-- A shader that was not known is taken in. -/
  | add {l : Library} {h : Host} {name : String} {definition : Definition} {shader : Shader}
      (unknown : l.shaders.get? name = none) (declared : l.Declares h.disk name definition)
      (made : Shader.ofDefinition definition (name == l.config.sharedShader)
        l.config.bufferLimit = .ok shader) :
      Move l h (l.adding name definition shader) h
  /-- The pending list is another list of shaders that are not built. -/
  | queue {l : Library} {h : Host} {names : List String} (nodup : names.Nodup)
      (waiting : ∀ name ∈ names, ∃ e, l.shaders.get? name = some e ∧ e.built = false) :
      Move l h { l with pending := names } h
  /-- The passes of a shader are worked on. -/
  | rework {l : Library} {h h' : Host} {name : String} {e : ShaderEntry} {o : ShaderObject}
      (there : l.shaders.get? name = some e)
      (reworked : e.object.Reworked l.registry.models l.config.sourceOptions h o h') :
      Move l h (l.replacing name { e with object := o }) h'
  /-- A shader counts as built. -/
  | built {l : Library} {h : Host} {name : String} {e : ShaderEntry}
      (there : l.shaders.get? name = some e) (free : name ∉ l.pending)
      (drawable : e.object.Drawable)
      (current : ∀ index < e.object.shader.passCount,
        e.object.Current l.registry.models l.config.sourceOptions index) :
      Move l h (l.replacing name { e with built := true }) h
  /-- The lighting passes of all shaders that were built are up to date. -/
  | finish {l : Library} {h : Host}
      (lit : ∀ name e, l.shaders.get? name = some e → e.built = true →
        e.object.Lit l.registry.models l.config.sourceOptions) :
      Move l h (l.marked false) h

/-- Any number of moves. -/
inductive Moves (l : Library) (h : Host) : Library → Host → Prop
  | none : Moves l h l h
  | step {l₁ l₂ : Library} {h₁ h₂ : Host} (moves : Moves l h l₁ h₁) (move : Move l₁ h₁ l₂ h₂) :
      Moves l h l₂ h₂

theorem Move.moves {l l' : Library} {h h' : Host} (move : Move l h l' h') : Moves l h l' h' :=
  .step .none move

theorem Moves.trans {l l₁ l₂ : Library} {h h₁ h₂ : Host} (first : Moves l h l₁ h₁)
    (second : Moves l₁ h₁ l₂ h₂) : Moves l h l₂ h₂ := by
  induction second with
  | none => exact first
  | step _ move ih => exact .step ih move

/-- What each move preserves, any number of them does. -/
theorem Moves.preserve {I : Library → Host → Prop}
    (step : ∀ {l h l' h'}, Move l h l' h' → I l h → I l' h') {l l' : Library} {h h' : Host}
    (moves : Moves l h l' h') (holds : I l h) : I l' h' := by
  induction moves with
  | none => exact holds
  | step _ move ih => exact step move ih

variable {l l' : Library} {h h' : Host}

/-- The world only builds in the course of moves. -/
theorem Moves.builds (moves : Moves l h l' h') : h.Builds h' := by
  refine moves.preserve (I := fun _ h' => h.Builds h') ?_ ⟨.refl _, .refl _, .refl _⟩
  intro _ _ _ _ move before
  cases move with
  | world builds => exact before.trans builds
  | rework _ reworked => exact before.trans reworked.world
  | turn _ => exact before
  | queue _ _ => exact before
  | finish _ => exact before
  | built _ _ _ _ => exact before
  | add _ _ _ => exact before

/-- No move changes the settings or the sources of a library. -/
theorem Moves.settings (moves : Moves l h l' h') :
    l'.config = l.config ∧ l'.sources = l.sources := by
  refine moves.preserve (I := fun l' _ => l'.config = l.config ∧ l'.sources = l.sources) ?_
    ⟨rfl, rfl⟩
  intro _ _ _ _ move same
  cases move <;> exact same

/-- No move concerns the materials or the textures of a library. -/
theorem Moves.belongings (moves : Moves l h l' h') :
    l'.materials = l.materials ∧ l'.textures = l.textures := by
  refine moves.preserve
    (I := fun l' _ => l'.materials = l.materials ∧ l'.textures = l.textures) ?_ ⟨rfl, rfl⟩
  intro _ _ _ _ move same
  cases move <;> exact same

end Library

end SurfaceShading
