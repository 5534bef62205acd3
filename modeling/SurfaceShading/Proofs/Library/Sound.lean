/-
  The invariant of a library. Its shaders and models are kept in order, pending shaders are
  known and not built, every pass of a shader that was built is compiled, every source that a
  pass holds was generated for some list of models, and the pipelines that passes hold are
  those the device made from their bytecode. Above all: while the registry is not dirty, every
  lighting pass of every shader that was built is compiled for the models that are registered
  now (`Sound.lit`).

  Every move of a library preserves it (`Move.sound`).
-/
import SurfaceShading.Proofs.Library.Moves

namespace SurfaceShading

namespace ModelRegistry

theorem adding_of_clean {r : ModelRegistry} {model? : Option ShadingModel}
    (clean : (r.adding model?).dirty = false) : r.adding model? = r := by
  unfold adding at clean ⊢
  cases model? with
  | none => rfl
  | some model =>
    cases known : r.get? model.id with
    | some _ => simp only [known]
    | none => simp only [known] at clean; cases clean

theorem sorted_adding {r : ModelRegistry} (sorted : r.entries.Sorted)
    (model? : Option ShadingModel) : (r.adding model?).entries.Sorted := by
  unfold adding
  cases model? with
  | none => exact sorted
  | some model =>
    dsimp only
    split
    · exact sorted
    · exact sorted.insert model.id model

/-- A model is registered under its own number. -/
def Keyed (r : ModelRegistry) : Prop := ∀ id model, r.get? id = some model → model.id = id

theorem Keyed.adding {r : ModelRegistry} (keyed : r.Keyed) (model? : Option ShadingModel) :
    (r.adding model?).Keyed := by
  unfold ModelRegistry.adding
  cases model? with
  | none => exact keyed
  | some model =>
    dsimp only
    split
    · exact keyed
    · intro id other is
      unfold ModelRegistry.get? at is
      rw [OrderedMap.get?_insert] at is
      split at is
      · next same => cases is; exact same.symm
      · exact keyed id other is

end ModelRegistry

/-- The source of every compiled pass was generated for some list of models. -/
def ShaderObject.Generated (o : ShaderObject) (options : SourceOptions) : Prop :=
  ∀ index text, o.source? index = some text →
    ∃ models, o.shader.source index models options = .ok text

namespace ShaderObject

variable {models : List ShadingModel} {options : SourceOptions} {o o' : ShaderObject}
  {h h' : Host}

theorem source?_new (id : ShaderId) (shader : Shader) (index : Nat) :
    (new id shader).source? index = none := by
  rw [source?, compiled?_new]
  rfl

theorem generated_new (id : ShaderId) (shader : Shader) (options : SourceOptions) :
    (new id shader).Generated options := by
  intro index text is
  rw [source?_new] at is
  cases is

theorem Reworked.lit (reworked : Reworked models options o h o' h') (fits : o.Fits)
    (lit : o.Lit models options) : o'.Lit models options := by
  intro index mem
  rw [reworked.shader] at mem
  exact reworked.current fits (lit index mem)

theorem Reworked.generated (reworked : Reworked models options o h o' h') (fits : o.Fits)
    (generated : o.Generated options) : o'.Generated options := by
  intro index text is
  rcases reworked.source fits index with same | ⟨text', is', eq⟩
  · rw [same] at is
    rw [reworked.shader]
    exact generated index text is
  · rw [eq] at is
    cases is
    exact ⟨models, is'⟩

end ShaderObject

/-- What holds of the entry of a shader beside a registry and a device. -/
structure ShaderEntry.Sound (e : ShaderEntry) (r : ModelRegistry) (options : SourceOptions)
    (d : Device) : Prop where
  fits : e.object.Fits
  recorded : e.object.Recorded d
  generated : e.object.Generated options
  compiled : e.built = true → e.object.isCompiled = true
  lit : r.dirty = false → e.built = true → e.object.Lit r.models options

namespace ShaderEntry.Sound

variable {e : ShaderEntry} {r r' : ModelRegistry} {options : SourceOptions} {d : Device}

theorem new (id : ShaderId) (shader : Shader) (r : ModelRegistry) (options : SourceOptions)
    (d : Device) : ShaderEntry.Sound ⟨.new id shader, false⟩ r options d where
  fits := ShaderObject.fits_new id shader
  recorded := ShaderObject.recorded_new id shader d
  generated := ShaderObject.generated_new id shader options
  compiled built := nomatch built
  lit _ built := nomatch built

/-- Another registry is as good if it is dirty or has the same models and is not. -/
theorem registry (sound : e.Sound r options d)
    (same : r'.dirty = false → r.dirty = false ∧ r'.models = r.models) :
    e.Sound r' options d :=
  { sound with
    lit := fun clean built => by
      obtain ⟨clean, models⟩ := same clean
      rw [models]
      exact sound.lit clean built }

theorem advance {d' : Device} (sound : e.Sound r options d) (device : d.Sound)
    (advances : d.Advances d') : e.Sound r options d' :=
  { sound with recorded := sound.recorded.mono device advances }

theorem rework {h h' : Host} {o : ShaderObject} (sound : e.Sound r options h.device)
    (device : h.device.Sound) (reworked : e.object.Reworked r.models options h o h') :
    ShaderEntry.Sound { e with object := o } r options h'.device where
  fits := reworked.fits sound.fits
  recorded := reworked.recorded device sound.recorded
  generated := reworked.generated sound.fits sound.generated
  compiled built := by
    refine (ShaderObject.isCompiled_iff (reworked.fits sound.fits)).2 fun index lt => ?_
    rw [reworked.shader] at lt
    exact reworked.isSome_compiled? sound.fits
      ((ShaderObject.isCompiled_iff sound.fits).1 (sound.compiled built) index lt)
  lit clean built := reworked.lit sound.fits (sound.lit clean built)

theorem built (sound : e.Sound r options d) (drawable : e.object.Drawable)
    (current : ∀ index < e.object.shader.passCount, e.object.Current r.models options index) :
    ShaderEntry.Sound { e with built := true } r options d :=
  { sound with
    compiled := fun _ => drawable.isCompiled sound.fits
    lit := fun _ _ index mem => current index (Shader.lt_passCount_of_mem_lightingPasses mem) }

end ShaderEntry.Sound

namespace Library

/-- What holds of a library and the device it works with, between any two moves. -/
structure Sound (l : Library) (d : Device) : Prop where
  device : d.Sound
  shaders_sorted : l.shaders.Sorted
  models_sorted : l.registry.entries.Sorted
  models_keyed : l.registry.Keyed
  pending_nodup : l.pending.Nodup
  pending_waits : ∀ name ∈ l.pending, ∃ e, l.shaders.get? name = some e ∧ e.built = false
  entry : ∀ {name e}, l.shaders.get? name = some e →
    e.Sound l.registry l.config.sourceOptions d

namespace Sound

variable {l : Library} {d d' : Device}

theorem new (config : Config) (textures : TextureTable) (device : d.Sound) :
    (Library.new config textures).Sound d where
  device := device
  shaders_sorted := OrderedMap.sorted_empty
  models_sorted := OrderedMap.sorted_empty
  models_keyed _ _ is := nomatch is
  pending_nodup := .nil
  pending_waits _ mem := absurd mem List.not_mem_nil
  entry is := nomatch is

theorem advance (sound : l.Sound d) (advances : d.Advances d') : l.Sound d' :=
  { sound with
    device := advances.sound sound.device
    entry := fun there => (sound.entry there).advance sound.device advances }

/-- The registry may change to one that is dirty, or that is as clean as before. -/
theorem withRegistry (sound : l.Sound d) {r : ModelRegistry} (sorted : r.entries.Sorted)
    (keyed : r.Keyed) (same : r.dirty = false → l.registry.dirty = false ∧ r.models = l.registry.models) :
    Sound { l with registry := r } d :=
  { sound with
    models_sorted := sorted
    models_keyed := keyed
    entry := fun there => (sound.entry there).registry same }

theorem queue (sound : l.Sound d) {names : List String} (nodup : names.Nodup)
    (waits : ∀ name ∈ names, ∃ e, l.shaders.get? name = some e ∧ e.built = false) :
    Sound { l with pending := names } d :=
  { sound with pending_nodup := nodup, pending_waits := waits }

/-- A new entry for one shader. -/
theorem replacing (sound : l.Sound d) {name : String} {e : ShaderEntry}
    (waits : name ∈ l.pending → e.built = false)
    (entry : e.Sound l.registry l.config.sourceOptions d) : (l.replacing name e).Sound d :=
  { sound with
    shaders_sorted := sound.shaders_sorted.insert name e
    pending_waits := fun other mem => by
      unfold Library.replacing
      rw [OrderedMap.get?_insert]
      split
      · next same => exact ⟨e, rfl, waits (same ▸ mem)⟩
      · exact sound.pending_waits other mem
    entry := fun {other _} there => by
      unfold Library.replacing at there
      rw [OrderedMap.get?_insert] at there
      split at there
      · cases there; exact entry
      · exact sound.entry there }

theorem not_mem_pending (sound : l.Sound d) {name : String}
    (unknown : l.shaders.get? name = none) : name ∉ l.pending := by
  intro mem
  obtain ⟨e, there, _⟩ := sound.pending_waits name mem
  rw [unknown] at there
  cases there

theorem adding (sound : l.Sound d) {name : String} (unknown : l.shaders.get? name = none)
    (definition : Definition) (shader : Shader) : (l.adding name definition shader).Sound d := by
  have registry : Sound { l with registry := l.registry.adding definition.model } d := by
    refine sound.withRegistry (ModelRegistry.sorted_adding sound.models_sorted _)
      (sound.models_keyed.adding _) fun clean => ?_
    have same := ModelRegistry.adding_of_clean clean
    exact ⟨same ▸ clean, by rw [same]⟩
  have entered : (Library.replacing { l with registry := l.registry.adding definition.model }
      name ⟨.new l.nextShader shader, false⟩).Sound d :=
    registry.replacing (fun _ => rfl) (.new l.nextShader shader _ _ d)
  have fresh := sound.not_mem_pending unknown
  refine { entered with pending_nodup := ?_, pending_waits := fun other mem => ?_ }
  · refine List.nodup_append.2 ⟨sound.pending_nodup, List.pairwise_singleton .., ?_⟩
    rintro other mem _ mem' rfl
    exact fresh (List.mem_singleton.1 mem' ▸ mem)
  · rcases List.mem_append.1 mem with mem | mem
    · exact entered.pending_waits other mem
    · rw [List.mem_singleton.1 mem]
      exact ⟨_, OrderedMap.get?_insert_self _ _ _, rfl⟩

/-- A pending shader was not built. -/
theorem built_of_mem_pending (sound : l.Sound d) {name : String} {e : ShaderEntry}
    (mem : name ∈ l.pending) (there : l.shaders.get? name = some e) : e.built = false := by
  obtain ⟨e', there', unbuilt⟩ := sound.pending_waits name mem
  rw [there] at there'
  cases there'
  exact unbuilt

end Sound

/-- Every move of a library preserves the invariant. -/
theorem Move.sound {l l' : Library} {h h' : Host} (move : Move l h l' h')
    (sound : l.Sound h.device) : l'.Sound h'.device := by
  cases move with
  | world builds => exact sound.advance builds.device
  | turn state =>
    exact sound.withRegistry sound.models_sorted sound.models_keyed fun clean => ⟨clean, rfl⟩
  | add unknown _ _ => exact sound.adding unknown _ _
  | queue nodup waits => exact sound.queue nodup waits
  | rework there reworked =>
    have waits := fun mem => sound.built_of_mem_pending mem there
    exact (sound.advance reworked.world.device).replacing waits
      ((sound.entry there).rework sound.device reworked)
  | built there free drawable current =>
    exact sound.replacing (fun mem => absurd mem free)
      ((sound.entry there).built drawable current)
  | finish lit =>
    exact { sound with
      entry := fun there =>
        { sound.entry there with lit := fun _ built => lit _ _ there built } }

theorem Moves.sound {l l' : Library} {h h' : Host} (moves : Moves l h l' h')
    (sound : l.Sound h.device) : l'.Sound h'.device :=
  Moves.preserve (I := fun l h => l.Sound h.device) Move.sound moves sound

end Library

end SurfaceShading
