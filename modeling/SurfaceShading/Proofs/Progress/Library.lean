/-
  Requests that cannot fail. On a device that refuses nothing, a library that writes no sources
  and holds and reads nothing but compilable shaders (`Library.Willing`) answers every request
  to load shaders without an error.
-/
import SurfaceShading.Proofs.Progress.Passes

namespace SurfaceShading

namespace Library

open Attempt (Succeeds Refused)

/-- Nothing that the library can be asked to compile can fail to: it writes no sources, and the
shaders that it holds and those that its sources declare are compilable. -/
structure Compilable (l : Library) : Prop where
  noCache : l.config.cacheDirectory = none
  declared : ∀ disk name definition shader, l.Declares disk name definition →
    Shader.ofDefinition definition (name == l.config.sharedShader) l.config.bufferLimit =
      .ok shader → shader.Compilable l.config.sourceOptions
  known : ∀ name e, l.shaders.get? name = some e →
    e.object.shader.Compilable l.config.sourceOptions

variable {l l' : Library} {h h' : Host}

theorem Compilable.replacing (compilable : l.Compilable) {name : String} {e e' : ShaderEntry}
    (there : l.shaders.get? name = some e) (same : e'.object.shader = e.object.shader) :
    (l.replacing name e').Compilable :=
  { compilable with
    known := fun other found is => by
      unfold Library.replacing at is
      rw [OrderedMap.get?_insert] at is
      split at is
      · cases is
        rw [same]
        exact compilable.known name e there
      · exact compilable.known other found is }

theorem Compilable.move (move : Move l h l' h') (compilable : l.Compilable) : l'.Compilable := by
  cases move with
  | world _ => exact compilable
  | turn _ => exact { compilable with }
  | queue _ _ => exact { compilable with }
  | finish _ => exact { compilable with }
  | rework there reworked => exact compilable.replacing there reworked.shader
  | built there _ _ _ => exact compilable.replacing there rfl
  | add _ declares made =>
    refine { compilable with known := fun other e is => ?_ }
    unfold Library.adding at is
    rw [OrderedMap.get?_insert] at is
    split at is
    · cases is
      exact compilable.declared _ _ _ _ declares made
    · exact compilable.known other e is

/-- Neither device nor shaders can make a compilation fail. -/
structure Willing (l : Library) (h : Host) : Prop where
  sound : l.Sound h.device
  compilable : l.Compilable
  compiles : h.device.Compiles
  makes : h.device.MakesPipelines

theorem Willing.moves (willing : l.Willing h) (moves : Moves l h l' h') : l'.Willing h' where
  sound := moves.sound willing.sound
  compilable := moves.preserve Compilable.move willing.compilable
  compiles := willing.compiles.advance moves.builds.device
  makes := willing.makes.advance moves.builds.device

theorem buildShader_ok (willing : l.Willing h) {name : String} {e : ShaderEntry}
    (there : l.shaders.get? name = some e) :
    Succeeds (buildShader name) l h := by
  have built : Succeeds (ShaderObject.build l.registry.models l.compileTarget) e.object h :=
    ShaderObject.build_ok willing.compiles willing.makes willing.compilable.noCache
      (willing.sound.entry there).fits (willing.compilable.known name e there)
  simp only [Succeeds, buildShader, Attempt.ends_bind, Attempt.ends_get, Attempt.after_ok]
  rw [ends_onShader there]
  refine Attempt.Ends.mono built ?_
  rintro _ o h' ⟨_, rfl⟩
  rw [Attempt.after_ok, markBuilt, Attempt.ends_modify]
  exact ⟨(), rfl⟩

theorem buildAll_ok (names : List String) (l : Library) (h : Host) (willing : l.Willing h)
    (empty : l.pending = []) (known : ∀ name ∈ names, l.Knows name) :
    Succeeds (buildAll names) l h := by
  induction names generalizing l h with
  | nil => exact ⟨(), rfl⟩
  | cons name rest ih =>
    obtain ⟨e, there⟩ := known name List.mem_cons_self
    have free : name ∉ l.pending := by rw [empty]; exact List.not_mem_nil
    have built : Succeeds (buildShader name) l h := buildShader_ok willing there
    unfold buildAll
    rw [Succeeds, Attempt.ends_bind, Attempt.ends_liftWork, Work.ends_run]
    refine (built.ends (buildShader_ends name willing.sound free there)).mono ?_
    rintro _ l₁ h₁ ⟨_, rfl, moves, same, _⟩
    rw [Attempt.after_ok]
    refine ih l₁ h₁ (willing.moves moves) (by rw [same]; exact empty) fun other mem => ?_
    obtain ⟨e, there⟩ := known other (List.mem_cons_of_mem name mem)
    obtain ⟨e', there', _⟩ := moves.entry there
    exact ⟨e', there'⟩

theorem onShader_rebuildLighting_ok (willing : l.Willing h) {models : List ShadingModel}
    (name : String) :
    Succeeds (onShader name 0 (ShaderObject.rebuildLighting models l.compileTarget)) l h := by
  unfold Succeeds
  cases there : l.shaders.get? name with
  | none =>
    rw [ends_onShader_of_unknown there]
    exact ⟨0, rfl⟩
  | some e =>
    rw [ends_onShader there]
    exact ShaderObject.rebuildLighting_ok willing.compiles willing.makes
      willing.compilable.noCache (willing.sound.entry there).fits
      (willing.compilable.known name e there)

theorem rebuildLighting_ok {models : List ShadingModel} (names : List String) (l : Library)
    (h : Host) (willing : l.Willing h) (now : models = l.registry.models) :
    Succeeds (rebuildLighting models names) l h := by
  induction names generalizing l h with
  | nil => exact ⟨0, rfl⟩
  | cons name rest ih =>
    unfold rebuildLighting
    rw [Succeeds, Attempt.ends_bind, Attempt.ends_get, Attempt.after_ok]
    refine (onShader_rebuildLighting_ok willing name).bind (relit_one name willing.sound now) ?_
    intro n l₁ h₁ relit
    have now₁ : models = l₁.registry.models := by rw [relit.same]; exact now
    have later : Succeeds (rebuildLighting models rest) l₁ h₁ :=
      ih l₁ h₁ (willing.moves relit.moves) now₁
    exact later.bind later fun m _ _ _ => ⟨n + m, rfl⟩

theorem regenerateExcept_ok (skipped : List String) (willing : l.Willing h)
    (idle : l.registry.state = .idle) :
    Succeeds (regenerateExcept skipped) l h := by
  have opened : Moves l h (l.turned .regenerating) h := (Move.turn .regenerating).moves
  have relit := rebuildLighting_ok ((l.turned .regenerating).relitNames skipped)
    (l.turned .regenerating) h (willing.moves opened) rfl
  unfold regenerateExcept onRegistry
  simp only [Succeeds, ModelRegistry.beginRegeneration, idle, Attempt.ends_bind,
    Attempt.ends_get, Attempt.after_ok, Attempt.ends_modify, Attempt.ends_liftWork, Work.ends_run]
  refine Attempt.Ends.mono relit ?_
  rintro _ l₁ h₁ ⟨count, rfl⟩
  simp only [Attempt.ends_bind, Attempt.ends_modify, Attempt.after_ok]
  exact .afterReport fun _ => ⟨count, rfl⟩

/-- A library that nothing can fail to compile, on a device that refuses all pipelines. -/
structure Unpiped (l : Library) (h : Host) : Prop where
  sound : l.Sound h.device
  compilable : l.Compilable
  compiles : h.device.Compiles
  refuses : h.device.RefusesPipelines

theorem Unpiped.moves (unpiped : l.Unpiped h) (moves : Moves l h l' h') : l'.Unpiped h' where
  sound := moves.sound unpiped.sound
  compilable := moves.preserve Compilable.move unpiped.compilable
  compiles := unpiped.compiles.advance moves.builds.device
  refuses := unpiped.refuses.advance moves.builds.device

theorem onShader_rebuildLighting_refused (unpiped : l.Unpiped h) {models : List ShadingModel}
    {name : String} {e : ShaderEntry} (there : l.shaders.get? name = some e)
    (lights : e.object.shader.lightingPasses ≠ []) :
    Attempt.Ends (onShader name 0 (ShaderObject.rebuildLighting models l.compileTarget)) l h
      Refused := by
  rw [ends_onShader there]
  exact ShaderObject.rebuildLighting_refused unpiped.compiles unpiped.refuses
    unpiped.compilable.noCache (unpiped.sound.entry there).fits
    (unpiped.compilable.known name e there) lights

/-- Shaders before the first with a lighting pass have nothing that could fail. -/
theorem onShader_rebuildLighting_cases (unpiped : l.Unpiped h) {models : List ShadingModel}
    (name : String) :
    Attempt.Ends (onShader name 0 (ShaderObject.rebuildLighting models l.compileTarget)) l h
      fun r l' h' => r = .ok 0 ∨ Refused r l' h' := by
  cases there : l.shaders.get? name with
  | none =>
    rw [ends_onShader_of_unknown there]
    exact .inl rfl
  | some e =>
    by_cases dark : e.object.shader.lightingPasses = []
    · rw [ends_onShader there]
      exact (ShaderObject.rebuildLighting_nothing dark).mono fun _ _ _ ok => .inl ok
    · exact (onShader_rebuildLighting_refused unpiped there dark).mono fun _ _ _ => .inr

theorem rebuildLighting_refused {models : List ShadingModel} {name : String}
    (names : List String) (l : Library) (h : Host) (unpiped : l.Unpiped h)
    (now : models = l.registry.models) (mem : name ∈ names) {e : ShaderEntry}
    (there : l.shaders.get? name = some e) (lights : e.object.shader.lightingPasses ≠ []) :
    Attempt.Ends (rebuildLighting models names) l h Refused := by
  induction names generalizing l h e with
  | nil => cases mem
  | cons first rest ih =>
    unfold rebuildLighting
    rw [Attempt.ends_bind, Attempt.ends_get, Attempt.after_ok]
    by_cases eq : name = first
    · subst eq
      exact (onShader_rebuildLighting_refused unpiped there lights).refused_bind _
    · have inRest : name ∈ rest := (List.mem_cons.1 mem).resolve_left eq
      refine ((onShader_rebuildLighting_cases unpiped first).and
        (relit_one first unpiped.sound now)).bind ?_ ?_
      · rintro n l₁ h₁ ⟨_, relit⟩
        obtain ⟨e₁, there₁, _, reworked⟩ := relit.entries there
        rw [← reworked.shader] at lights
        have now₁ : models = l₁.registry.models := by rw [relit.same]; exact now
        have later : Attempt.Ends (rebuildLighting models rest) l₁ h₁ Refused :=
          ih l₁ h₁ (unpiped.moves relit.moves) now₁ inRest there₁ lights
        exact later.refused_bind _
      · rintro _ _ _ ⟨ends, _⟩
        rcases ends with eq | ⟨d, eq⟩
        · cases eq
        · cases eq
          exact ⟨d, rfl⟩

/-- A regeneration that has a lighting pass to make anew is stopped by a device that refuses
pipelines. -/
theorem regenerate_refused {skipped : List String} (unpiped : l.Unpiped h)
    (idle : l.registry.state = .idle) {name : String} {e : ShaderEntry}
    (there : l.shaders.get? name = some e) (built : e.built = true) (notSkipped : name ∉ skipped)
    (lights : e.object.shader.lightingPasses ≠ []) :
    Attempt.Ends (regenerateExcept skipped) l h Refused := by
  have opened : Moves l h (l.turned .regenerating) h := (Move.turn .regenerating).moves
  have mem : name ∈ (l.turned .regenerating).relitNames skipped :=
    (mem_relitNames (l := l.turned .regenerating) unpiped.sound.shaders_sorted).2
      ⟨⟨e, there, built⟩, notSkipped⟩
  unfold regenerateExcept onRegistry
  simp only [ModelRegistry.beginRegeneration, idle, Attempt.ends_bind, Attempt.ends_get,
    Attempt.after_ok, Attempt.ends_modify, Attempt.ends_liftWork, Work.ends_run]
  refine (rebuildLighting_refused _ (l.turned .regenerating) h (unpiped.moves opened) rfl mem there
    lights).mono ?_
  rintro _ l₁ h₁ ⟨d, rfl⟩
  simp only [Attempt.ends_bind, Attempt.ends_modify, Attempt.after_ok, Attempt.ends_throw]
  exact ⟨d, rfl⟩

/-! ## Requests that load -/

theorem compilePending_ok (willing : l.Willing h) (idle : l.registry.state = .idle) :
    Succeeds compilePending l h := by
  have emptied : Moves l h l.unqueued h :=
    (Move.queue .nil fun _ mem => absurd mem List.not_mem_nil).moves
  have waiting : l.unqueued.Waiting l.pendingOrder :=
    fun name mem => willing.sound.pending_waits name (mem_buildOrder.1 mem)
  have built : Succeeds (buildAll l.pendingOrder) l.unqueued h :=
    buildAll_ok l.pendingOrder l.unqueued h (willing.moves emptied) rfl
      fun name mem => (waiting name mem).imp fun _ is => is.1
  unfold compilePending
  simp only [Succeeds, Attempt.ends_bind, Attempt.ends_get, Attempt.after_ok, Attempt.ends_set]
  refine (built.ends (buildAll_ends l.pendingOrder l.unqueued h (emptied.sound willing.sound) rfl
    (nodup_buildOrder willing.sound.pending_nodup) waiting)).mono ?_
  rintro _ l₁ h₁ ⟨_, rfl, all⟩
  simp only [Attempt.ends_bind, Attempt.ends_get, Attempt.after_ok]
  split
  · have idle₁ : l₁.registry.state = .idle := by rw [all.same]; exact idle
    have regenerated : Succeeds (regenerateExcept l.pendingOrder) l₁ h₁ :=
      regenerateExcept_ok l.pendingOrder (willing.moves (emptied.trans all.moves)) idle₁
    exact regenerated.bind regenerated fun _ _ _ _ => ⟨(), rfl⟩
  · exact ⟨(), rfl⟩

/-- What is asked for is known, or the sources declare it. -/
def Offers (l : Library) (name : String) : Prop :=
  ∀ disk, ∃ definition shader, l.Declares disk name definition ∧
    Shader.ofDefinition definition (name == l.config.sharedShader) l.config.bufferLimit =
      .ok shader

theorem Offers.congr {name : String} (offers : l.Offers name) (sources : l'.sources = l.sources)
    (config : l'.config = l.config) : l'.Offers name := by
  unfold Offers Declares at offers ⊢
  rw [sources, config]
  exact offers

theorem readDefinition_ok {name : String} {definition : Definition}
    (declares : l.Declares h.disk name definition) :
    Attempt.Ends (readDefinition name) l h fun r l' _ => r = .ok definition ∧ l' = l := by
  obtain ⟨text, read, parsed⟩ := declares
  simp only [readDefinition, Attempt.ends_bind, Attempt.ends_get, Attempt.after_ok,
    Attempt.ends_getHost, read, Attempt.ends_liftHost]
  refine .of_forall fun _ h' => ?_
  rw [parsed]
  exact ⟨rfl, rfl⟩

theorem addShader_ok (isOpen : l.registry.state ≠ .regenerating) {name : String}
    {definition : Definition} {shader : Shader}
    (made : Shader.ofDefinition definition (name == l.config.sharedShader) l.config.bufferLimit =
      .ok shader) :
    Succeeds (addShader name definition) l h := by
  unfold addShader
  rw [Succeeds, Attempt.ends_bind, Attempt.ends_get, Attempt.after_ok]
  refine .afterReport fun h => .afterHost fun h => ?_
  rw [Attempt.ends_bind, Attempt.ends_ofExcept, made, Attempt.after_ok]
  cases definition.model with
  | some model =>
    refine (registerModel_ends model isOpen).bind ?_ ?_
    · exact fun _ _ _ _ => .afterHost fun _ => ⟨(), rfl⟩
    · rintro e _ _ ⟨eq, _⟩
      cases eq
  | none => exact .afterHost fun _ => ⟨(), rfl⟩

theorem ensureShader_ok (isOpen : l.registry.state ≠ .regenerating) {name : String}
    (offers : l.Offers name) :
    Succeeds (ensureShader name) l h := by
  obtain ⟨definition, shader, declares, made⟩ := offers h.disk
  unfold ensureShader
  rw [Succeeds, Attempt.ends_bind, Attempt.ends_get, Attempt.after_ok]
  split
  · refine (readDefinition_ok declares).bind ?_ ?_
    · rintro _ _ h₁ ⟨eq, rfl⟩
      cases eq
      exact addShader_ok isOpen made
    · rintro e _ _ ⟨eq, _⟩
      cases eq
  · exact ⟨(), rfl⟩

theorem ensureShaders_ok (names : List String) (l : Library) (h : Host)
    (isOpen : l.registry.state ≠ .regenerating) (offers : ∀ name ∈ names, l.Offers name) :
    Succeeds (ensureShaders names) l h := by
  induction names generalizing l h with
  | nil => exact ⟨0, rfl⟩
  | cons name rest ih =>
    have first : Succeeds (ensureShader name) l h :=
      ensureShader_ok isOpen (offers name List.mem_cons_self)
    unfold ensureShaders
    refine first.bind (ensureShader_gathers name isOpen) ?_
    rintro _ l₁ h₁ ⟨gathered, _⟩
    have later : Succeeds (ensureShaders rest) l₁ h₁ := by
      refine ih l₁ h₁ (gathered.state ▸ isOpen) fun other mem => ?_
      exact (offers other (List.mem_cons_of_mem name mem)).congr gathered.sources gathered.config
    exact later.bind later fun n _ _ _ => ⟨n + 1, rfl⟩

theorem registerShaders_ok (names : List String) (idle : l.registry.state = .idle)
    (offers : ∀ name ∈ names, l.Offers name) :
    Succeeds (registerShaders names) l h := by
  simp only [Succeeds, registerShaders, onRegistry, ModelRegistry.beginRegistration, idle,
    Attempt.ends_bind, Attempt.ends_get, Attempt.after_ok, Attempt.ends_modify,
    Attempt.ends_liftWork, Work.ends_run, Attempt.ends_ofExcept]
  have isOpen : RegistryState.registering ≠ .regenerating := by decide
  exact ensureShaders_ok names _ h isOpen offers

theorem loadNew_ok (willing : l.Willing h) (idle : l.registry.state = .idle) {name : String}
    (offers : l.Offers name) (new : l.built? name = none) :
    Succeeds (loadNew name) l h := by
  have isOpen : l.registry.state ≠ .regenerating := by rw [idle]; decide
  unfold loadNew
  refine (ensureShader_ok isOpen offers).bind (ensureShader_gathers name isOpen) ?_
  rintro _ l₁ h₁ ⟨gathered, knows, _⟩
  obtain ⟨e, there⟩ := knows rfl
  have willing₁ : l₁.Willing h₁ := willing.moves gathered.moves
  have dequeued : Move l₁ h₁ (l₁.dequeued name) h₁ := willing₁.sound.dequeued h₁ name
  have willing₂ : (l₁.dequeued name).Willing h₁ := willing₁.moves dequeued.moves
  have built : Succeeds (buildShader name) (l₁.dequeued name) h₁ := buildShader_ok willing₂ there
  simp only [Succeeds, Attempt.ends_bind, Attempt.ends_modify, Attempt.after_ok,
    Attempt.ends_liftWork, Work.ends_run]
  refine (built.ends (buildShader_tries name willing₂.sound (not_mem_dequeued l₁ name) there
    (gathered.unbuilt new there))).mono ?_
  rintro _ l₂ h₂ ⟨_, rfl, tried⟩
  have idle₂ : l₂.registry.state = .idle := by
    rw [tried.same]
    exact gathered.state.trans idle
  unfold settle
  rw [Attempt.ends_bind, Attempt.ends_get, Attempt.after_ok]
  split
  · rw [Attempt.ends_bind, Attempt.ends_liftWork, Work.ends_run]
    refine Attempt.Ends.mono (regenerateExcept_ok [name] (willing₂.moves tried.moves) idle₂) ?_
    rintro _ _ _ ⟨n, rfl⟩
    exact ⟨(), rfl⟩
  · exact ⟨(), rfl⟩

theorem loadShader_ok (willing : l.Willing h) (idle : l.registry.state = .idle) {name : String}
    (offers : l.Offers name) :
    Succeeds (loadShader name) l h := by
  unfold loadShader
  rw [Succeeds, Attempt.ends_bind, Attempt.ends_get, Attempt.after_ok]
  split
  · next o _ =>
    simp only [Attempt.ends_bind, Attempt.ends_liftHost]
    exact .of_forall fun _ _ => ⟨o, rfl⟩
  · next new =>
    refine (loadNew_ok willing idle offers new).bind
      (loadNew_ends name l h willing.sound idle new) ?_
    intro _ l' h' loaded
    obtain ⟨_, _, _, e, there, _⟩ := loaded.done () rfl
    have found : l'.shader? name = some e.object := shader?_eq_some.2 ⟨e, there, rfl⟩
    simp only [Succeeds, requireShader, Attempt.ends_bind, Attempt.ends_get, Attempt.after_ok,
      found]
    exact ⟨e.object, rfl⟩

end Library

end SurfaceShading
