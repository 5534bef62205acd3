/-
  Loads that are answered with a shader that was built before. Every other load that does not
  fail brings the lighting passes up to date first; such a load does nothing, so it succeeds
  while lighting passes are out of date iff they were before (`Session.load_current_iff`). They
  can be: a compilation of pending shaders that breaks off regenerates nothing, and leaves none
  pending to be compiled later (`Session.cached_load_stale`).
-/
import SurfaceShading.Proofs.Freshness
import SurfaceShading.Proofs.LoadOrder

namespace SurfaceShading

namespace Session

/-- A load that does not fail leaves the registry dirty iff it was so and the shader was built
before. -/
theorem load_dirty_iff {s : Session} (sound : s.Sound) {name : String}
    (ok : (s.perform (.loadShader name)).1 = .ok ()) :
    (s.step (.loadShader name)).library.registry.dirty = true ↔
      (s.library.built? name).isSome = true ∧ s.library.registry.dirty = true := by
  refine (s.ends_perform (.loadShader name)).1 (.done_of_ok (P := fun l _ =>
    l.registry.dirty = true ↔ (s.library.built? name).isSome = true ∧
      s.library.registry.dirty = true)
    ((Library.loadShader_ends name s.library s.host sound.library sound.idle).mono ?_)) ok
  rintro r l' h' (⟨o, built, _, rfl, _⟩ | ⟨new, loaded⟩) ⟨o, answer⟩
  · rw [built]
    exact (and_iff_right rfl).symm
  · rw [(loaded.done o answer).1, new]
    exact iff_of_false Bool.false_ne_true fun is => Bool.false_ne_true is.1

/-- **When a load leaves lighting current.** In every session, with shaders pending or not and
whatever the device refused before: a load that does not fail leaves the registry clean unless
the shader was built before and the registry was dirty. Then every lighting pass of every shader
that was built holds the source for all the models that are registered. -/
theorem load_current_iff (config : Config) (texts : OrderedMap String String) (loader : Loader)
    (disk : Disk) (ops : List Operation) (name : String)
    (ok : (((start config texts loader disk).run ops).perform (.loadShader name)).1 = .ok ()) :
    let s := (start config texts loader disk).run ops
    let l := (s.step (.loadShader name)).library
    (l.registry.dirty = false ↔
      ¬((s.library.built? name).isSome = true ∧ s.library.registry.dirty = true)) ∧
    (l.registry.dirty = false → ∀ other o, l.built? other = some o →
      ∀ index ∈ o.shader.lightingPasses, ∃ text,
        o.shader.source index l.registry.models l.config.sourceOptions = .ok text ∧
          o.source? index = some text) := by
  intro s l
  have sound : s.Sound := run_sound (start_sound config texts loader disk) ops
  refine ⟨?_, (step_sound sound (.loadShader name)).library.lightingFresh⟩
  rw [← load_dirty_iff sound ok, Bool.not_eq_true]

end Session

/-! ## A build that the device stops -/

/-- The device refuses every compilation. -/
def Device.RefusesCompilations (d : Device) : Prop :=
  ∀ n source entry stage, ∃ e, d.policy n (.compile source entry stage) = some e

namespace ShaderObject

variable {models : List ShadingModel} {target : CompileTarget} {o : ShaderObject} {h : Host}

theorem compileStage_refused (refuses : h.device.RefusesCompilations) (shader : Shader)
    (target : CompileTarget) (index : Nat) (source entry : String) (stage : Stage) :
    HostM.Ends (compileStage shader target index source entry stage) h fun r _ =>
      ∃ e, r = .error e := by
  obtain ⟨e, refused⟩ := refuses h.device.requests source entry stage
  simp only [compileStage, Device.compile, Device.ask, HostM.ends_bind, HostM.ends_get,
    HostM.ends_modify, HostM.ends_pure, refused]
  exact .of_forall fun _ _ => .of_forall fun _ _ => ⟨_, rfl⟩

theorem compilePass_refused (refuses : h.device.RefusesCompilations)
    (noCache : target.cacheDirectory = none) (index : Nat) :
    Attempt.Ends (compilePass index models target) o h fun r _ _ => ∃ e, r = .error e := by
  simp only [compilePass, Attempt.ends_bind, Attempt.ends_get, Attempt.after_ok,
    Attempt.ends_ofExcept, writeSource_of_noCache noCache]
  cases o.shader.source index models target.options with
  | error e => exact ⟨e, rfl⟩
  | ok source =>
    rw [Attempt.after_ok]
    cases o.shader.definition.passes[index]? with
    | none => exact ⟨_, rfl⟩
    | some pass =>
      simp only [Attempt.ends_bind, Attempt.ends_mk, Work.ends_lift, HostM.ends_pure,
        Attempt.after_ok]
      refine (compileStage_refused refuses o.shader target index source pass.vertex .vertex).mono ?_
      rintro _ h' ⟨e, rfl⟩
      exact ⟨e, rfl⟩

/-- A shader with passes is not built by a device that compiles nothing. -/
theorem build_refused (refuses : h.device.RefusesCompilations)
    (noCache : target.cacheDirectory = none) (passes : o.shader.passCount ≠ 0) :
    Attempt.Ends (build models target) o h fun r _ _ => ∃ e, r = .error e := by
  obtain ⟨count, is⟩ := Nat.exists_eq_succ_of_ne_zero passes
  have all : List.range o.shader.passCount = 0 :: (List.range count).map Nat.succ := by
    rw [is, List.range_succ_eq_map]
  simp only [build, compile, Attempt.ends_bind, Attempt.ends_get, Attempt.after_ok, all,
    compilePasses]
  refine (compilePass_refused refuses noCache 0).mono ?_
  rintro _ _ _ ⟨e, rfl⟩
  exact ⟨e, rfl⟩

end ShaderObject

/-- What is added while the registry is open for it is there when it is closed. -/
theorem ModelRegistry.endRegistration_adding {r : ModelRegistry} (idle : r.state = .idle)
    (model? : Option ShadingModel) :
    (({ r with state := .registering } : ModelRegistry).adding model?).endRegistration =
      r.adding model? := by
  obtain ⟨entries, dirty, state⟩ := r
  cases idle
  cases model? with
  | none => rfl
  | some model =>
    unfold adding get?
    dsimp only
    cases entries.get? model.id <;> rfl

namespace Library

variable {l : Library} {h : Host} {name : String}

/-- A build that the device refuses touches no other shader. -/
theorem buildShader_refused (refuses : h.device.RefusesCompilations)
    (noCache : l.config.cacheDirectory = none) {e : ShaderEntry}
    (there : l.shaders.get? name = some e) (passes : e.object.shader.passCount ≠ 0) :
    Attempt.Ends (buildShader name) l h fun r l' _ => (∃ error, r = .error error) ∧
      l' = { l with shaders := l'.shaders } ∧ SameBut [name] l l' := by
  have fails : Attempt.Ends (ShaderObject.build l.registry.models l.compileTarget) e.object h
      fun r _ _ => ∃ error, r = .error error :=
    ShaderObject.build_refused refuses noCache passes
  simp only [buildShader, Attempt.ends_bind, Attempt.ends_get, Attempt.after_ok]
  rw [ends_onShader there]
  refine fails.mono ?_
  rintro _ o h' ⟨error, rfl⟩
  exact ⟨⟨error, rfl⟩, rfl, fun other ne => get?_replacing_of_ne l (mt List.mem_singleton.2 ne) _⟩

/-- The only pending shader is taken off the list when the device does not build it. No lighting
pass is made anew, and the registry stays as it is. -/
theorem compilePending_refused (refuses : h.device.RefusesCompilations)
    (noCache : l.config.cacheDirectory = none) (pending : l.pending = [name]) {e : ShaderEntry}
    (there : l.shaders.get? name = some e) (passes : e.object.shader.passCount ≠ 0) :
    Attempt.Ends compilePending l h fun _ l' _ =>
      l' = { l with shaders := l'.shaders, pending := [] } ∧ SameBut [name] l l' := by
  have order : buildOrder l.config.sharedShader [name] = [name] := by
    unfold buildOrder
    by_cases same : name = l.config.sharedShader <;> simp [same]
  unfold compilePending
  simp only [Attempt.ends_bind, Attempt.ends_get, Attempt.after_ok, Attempt.ends_set, pending,
    order, buildAll, Attempt.ends_liftWork, Work.ends_run]
  refine (buildShader_refused (l := l.unqueued) refuses noCache there passes).mono ?_
  rintro _ l₁ h₁ ⟨⟨error, rfl⟩, same, others⟩
  simp only [Attempt.after_ok, Attempt.after_error, Attempt.ends_bind, Attempt.ends_modify,
    Attempt.ends_throw]
  refine ⟨?_, others⟩
  rw [same]
  rfl

/-- A shader that is not known and is declared as the sources say is all that its registration
adds. -/
theorem registerShaders_one (idle : l.registry.state = .idle)
    (unknown : l.shaders.get? name = none) (offers : l.Offers name) :
    Attempt.Ends (registerShaders [name]) l h fun _ l' h' => h.Builds h' ∧
      ∃ definition shader, l.Declares h.disk name definition ∧
        Shader.ofDefinition definition (name == l.config.sharedShader) l.config.bufferLimit =
          .ok shader ∧ l' = l.adding name definition shader := by
  have isOpen : (l.turned .registering).registry.state ≠ .regenerating := nofun
  have ensured := ((ensureShader_ok (h := h) isOpen (offers.congr rfl rfl)).ends
    (ensureShader_ends name isOpen))
  refine ((registerShaders_keeps [name] l h).and ?_).mono fun _ _ _ ⟨spares, added⟩ =>
    ⟨spares.toBuilds, added⟩
  simp only [registerShaders, onRegistry, ModelRegistry.beginRegistration, idle,
    Attempt.ends_bind, Attempt.ends_get, Attempt.after_ok, Attempt.ends_modify,
    Attempt.ends_liftWork, Work.ends_run, Attempt.ends_ofExcept, ensureShaders]
  refine ensured.mono ?_
  rintro _ l₁ h₁ ⟨_, rfl, ends⟩
  simp only [Attempt.after_ok, Attempt.ends_bind, Attempt.ends_pure]
  cases ends with
  | known knows =>
    obtain ⟨e, there⟩ := knows
    cases unknown.symm.trans there
  | @added definition shader _ declared made =>
    exact ⟨definition, shader, declared, made,
      congrArg (fun r => { l.adding name definition shader with registry := r })
        (ModelRegistry.endRegistration_adding idle definition.model)⟩

end Library

namespace Session

/-- A shader that was built is given at once. -/
theorem load_cached {s : Session} (sound : s.Sound) {name : String} {o : ShaderObject}
    (built : s.library.built? name = some o) :
    (s.perform (.loadShader name)).1 = .ok () ∧
      (s.step (.loadShader name)).library = s.library := by
  refine (s.ends_perform (.loadShader name)).1 (?_ : Attempt.Ends _ _ _ fun r l' _ =>
    r = .ok () ∧ l' = s.library)
  refine (Library.loadShader_ends name s.library s.host sound.library sound.idle).bind ?_ ?_
  · rintro _ l' h' (⟨_, _, _, rfl, _⟩ | ⟨new, _⟩)
    · exact ⟨rfl, rfl⟩
    · cases built.symm.trans new
  · rintro e l' h' (⟨_, _, answer, _⟩ | ⟨new, _⟩)
    · cases answer
    · cases built.symm.trans new

/-! ## Two shaders, the second of which breaks off -/

theorem twoShaders_sound : twoShaders.Sound := start_sound ..

theorem screen_loaded : (twoShaders.perform (.loadShader "Screen")).1 = .ok () := by
  refine (loads_ok [.load "Screen"] twoShaders_sound twoShaders_willing fun name mem => ?_).1
  exact twoShaders_offers name (.inl (List.mem_singleton.1 mem))

/-- The first load of the lighting shader leaves the registry clean and its passes current. -/
theorem screen_load_current :
    (twoShaders.perform (.loadShader "Screen")).1 = .ok () ∧
    let l := (twoShaders.step (.loadShader "Screen")).library
    l.registry.dirty = false ∧ ∀ other o, l.built? other = some o →
      ∀ index ∈ o.shader.lightingPasses, ∃ text,
        o.shader.source index l.registry.models l.config.sourceOptions = .ok text ∧
          o.source? index = some text := by
  obtain ⟨clean_iff, current⟩ :=
    load_current_iff .standard twoTexts (.stub [] []) .empty [] "Screen" screen_loaded
  have clean := clean_iff.2 fun stale => Bool.false_ne_true stale.1
  exact ⟨screen_loaded, clean, current clean⟩

/-- The device compiles nothing any more. -/
def outage : Operation := .world .empty (.stub [] []) none fun _ _ => some .deviceLost

/-- A library in which the lighting shader was built for no models, and no other is known. -/
structure ScreenAlone (l : Library) : Prop where
  config : l.config = .standard
  sources : l.sources = twoShaders.library.sources
  pending : l.pending = []
  models : ∀ id, l.registry.get? id = none
  others : ∀ name e, l.shaders.get? name = some e → name = "Screen"
  lit : ∃ o text, l.built? "Screen" = some o ∧ 0 ∈ o.shader.lightingPasses ∧
    o.shader.source 0 [] l.config.sourceOptions = .ok text ∧ o.source? 0 = some text

theorem screenAlone {s : Session}
    (started : Library.Loaded twoShaders.library .empty [] s.library s.host) (sound : s.Sound)
    (settled : s.library.pending = []) (ok : (s.perform (.loadShader "Screen")).1 = .ok ()) :
    ScreenAlone (s.step (.loadShader "Screen")).library := by
  have loaded : Library.Loaded twoShaders.library .empty ["Screen"]
      (s.step (.loadShader "Screen")).library (s.step (.loadShader "Screen")).host :=
    step_loaded started (.load "Screen") ok
  have settled := load_pending sound "Screen" ok settled
  have only (name : String) (e : ShaderEntry)
      (there : (s.step (.loadShader "Screen")).library.shaders.get? name = some e) :
      name = "Screen" ∧ e.object.shader.definition = screenDefinition ∧ e.object.shader.shared := by
    have known : name = "Screen" := List.mem_singleton.1 ((loaded.known name).1 ⟨e, there⟩)
    obtain ⟨definition, ⟨_, _, declares⟩, made⟩ := loaded.faithful.declared name e there
    obtain ⟨same, shared⟩ := Shader.of_made made
    rcases eq_of_twoShaders_declares declares with ⟨rfl, rfl⟩ | ⟨eq, _⟩
    · exact ⟨rfl, same, shared⟩
    · exact absurd (known.symm.trans eq) (by decide)
  have models (id : UInt32) :
      (s.step (.loadShader "Screen")).library.registry.get? id = none := by
    cases registered : (s.step (.loadShader "Screen")).library.registry.get? id with
    | none => rfl
    | some model =>
      obtain ⟨name, e, there, declared, _⟩ := loaded.faithful.models id model registered
      rw [(only name e there).2.1] at declared
      cases declared
  obtain ⟨e, there, built, _⟩ := loaded.built_declared settled List.mem_cons_self
  have none : (s.step (.loadShader "Screen")).library.registry.models = [] := by
    have empty := loaded.sound.models_sorted.ext OrderedMap.sorted_empty models
    exact congrArg OrderedMap.values empty
  have clean : (s.step (.loadShader "Screen")).library.registry.dirty = false :=
    Bool.eq_false_iff.2 fun dirty => loaded.dirty dirty settled
  have lights : 0 ∈ e.object.shader.lightingPasses := by
    obtain ⟨_, definition, shared⟩ := only "Screen" e there
    simp [Shader.lightingPasses, Shader.passCount, Shader.passKind?, definition, shared,
      screenDefinition, PassKind.resolve, PassKind.usesModels]
  obtain ⟨text, source, holds⟩ := (loaded.sound.entry there).lit clean built 0 lights
  rw [none] at source
  exact ⟨loaded.faithful.config, loaded.faithful.sources, settled, models,
    fun name e there => (only name e there).1, e.object, text,
    Library.built?_eq_some.2 ⟨e, there, built, rfl⟩, lights, source, holds⟩

/-- On a device that compiles nothing the second shader can still be registered. -/
theorem ScreenAlone.registers {s : Session} (sound : s.Sound) (alone : ScreenAlone s.library) :
    let s' := (s.step outage).step (.registerShaders ["Toon"])
    s'.host.device.RefusesCompilations ∧ ∃ shader, shader.definition = toonDefinition ∧
      s'.library = s.library.adding "Toon" toonDefinition shader := by
  have sound₁ : (s.step outage).Sound := step_sound sound outage
  have unknown : (s.step outage).library.shaders.get? "Toon" = none := by
    cases there : (s.step outage).library.shaders.get? "Toon" with
    | none => rfl
    | some e => exact absurd (alone.others "Toon" e there) (by decide)
  have offers : (s.step outage).library.Offers "Toon" :=
    (twoShaders_offers "Toon" (.inr rfl)).congr alone.sources alone.config
  obtain ⟨builds, definition, shader, declares, made, added⟩ :=
    ((s.step outage).ends_perform (.registerShaders ["Toon"])).1
      (.done (Library.registerShaders_one sound₁.idle unknown offers))
  have declared : twoShaders.library.Declares (s.step outage).host.disk "Toon" definition := by
    have sources : (s.step outage).library.sources = twoShaders.library.sources := alone.sources
    have config : (s.step outage).library.config = twoShaders.library.config := alone.config
    unfold Library.Declares at declares ⊢
    rwa [sources, config] at declares
  obtain rfl : definition = toonDefinition := by
    rcases eq_of_twoShaders_declares declared with ⟨eq, _⟩ | ⟨_, eq⟩
    · exact absurd eq (by decide)
    · exact eq
  refine ⟨?_, shader, (Shader.of_made made).1, added⟩
  unfold Device.RefusesCompilations
  rw [builds.device.policy]
  exact fun _ _ _ _ => ⟨_, rfl⟩

/-- The device goes out while the second shader is registered and should be built. -/
def breakingOff : List Operation :=
  [outage, .registerShaders ["Toon"], .compilePending,
    .world .empty (.stub [] []) none Device.acceptAll]

/-- Its build breaks off, which leaves the first shader as it is and the registry dirty. -/
theorem ScreenAlone.breaksOff {s : Session} (sound : s.Sound) (alone : ScreenAlone s.library) :
    let l := (s.run breakingOff).library
    l.pending = [] ∧ l.config = s.library.config ∧ l.registry.dirty = true ∧
      (∃ model, l.registry.get? 7 = some model) ∧
      l.built? "Screen" = s.library.built? "Screen" := by
  obtain ⟨refuses, shader, declared, added⟩ := alone.registers sound
  have noCache : (s.library.adding "Toon" toonDefinition shader).config.cacheDirectory = none :=
    congrArg Config.cacheDirectory alone.config
  have pending : (s.library.adding "Toon" toonDefinition shader).pending = ["Toon"] :=
    congrArg (· ++ ["Toon"]) alone.pending
  have passes : shader.passCount ≠ 0 := by
    rw [Shader.passCount, declared]
    decide
  have entries : (s.library.adding "Toon" toonDefinition shader).registry =
      { s.library.registry with
        entries := s.library.registry.entries.insert 7 ⟨7, "Toon(input)", " return input; "⟩
        dirty := true } := by
    show s.library.registry.adding toonDefinition.model = _
    simp only [ModelRegistry.adding, toonDefinition, alone.models 7]
  have last : (s.run breakingOff).library =
      (((s.step outage).step (.registerShaders ["Toon"])).step .compilePending).library := rfl
  rw [last]
  generalize (s.step outage).step (.registerShaders ["Toon"]) = s₁ at refuses added ⊢
  obtain ⟨same, others⟩ : _ ∧ Library.SameBut ["Toon"] _ _ :=
    (s₁.ends_perform .compilePending).1 (by
      rw [added]
      exact Library.compilePending_refused refuses noCache pending
        (OrderedMap.get?_insert_self _ _ _) passes)
  generalize (s₁.step .compilePending).library = l' at same others ⊢
  have registry : l'.registry = _ := (congrArg Library.registry same).trans entries
  have screen : l'.shaders.get? "Screen" = s.library.shaders.get? "Screen" :=
    (others "Screen" (by decide)).trans
      (OrderedMap.get?_insert_of_ne s.library.shaders (by decide) _)
  have config : l'.config = s.library.config := (congrArg Library.config same).trans rfl
  refine ⟨congrArg Library.pending same, config, congrArg ModelRegistry.dirty registry,
    ⟨⟨7, "Toon(input)", " return input; "⟩, ?_⟩, ?_⟩
  · rw [registry]
    exact OrderedMap.get?_insert_self _ _ _
  · simp only [Library.built?, screen]

/-- The first shader is then given as it was built, without the model. -/
theorem ScreenAlone.load_stale {s : Session} (sound : s.Sound) (alone : ScreenAlone s.library) :
    let s' := s.run breakingOff
    s'.library.pending = [] ∧ (s'.perform (.loadShader "Screen")).1 = .ok () ∧
    let l := (s'.step (.loadShader "Screen")).library
    l.registry.dirty = true ∧ (∃ model, l.registry.get? 7 = some model) ∧
      ∃ o text, l.built? "Screen" = some o ∧ 0 ∈ o.shader.lightingPasses ∧
        o.shader.source 0 [] l.config.sourceOptions = .ok text ∧ o.source? 0 = some text := by
  obtain ⟨pending, config, dirty, registered, same⟩ := alone.breaksOff sound
  obtain ⟨o, text, built, lights, source, holds⟩ := alone.lit
  obtain ⟨ok, unchanged⟩ := load_cached (run_sound sound breakingOff) (same.trans built)
  refine ⟨pending, ok, ?_⟩
  rw [unchanged]
  exact ⟨dirty, registered, o, text, same.trans built, lights, config ▸ source, holds⟩

/-- A shader that is given at once although lighting is out of date: the pending list is empty,
the device accepts everything and the load does not fail, but the registry is dirty afterwards,
and the lighting pass holds the source for no models while one is registered. -/
theorem cached_load_stale :
    let s := twoShaders.run (.loadShader "Screen" :: breakingOff)
    s.library.pending = [] ∧ (s.perform (.loadShader "Screen")).1 = .ok () ∧
    let l := (s.step (.loadShader "Screen")).library
    l.registry.dirty = true ∧ (∃ model, l.registry.get? 7 = some model) ∧
      ∃ o text, l.built? "Screen" = some o ∧ 0 ∈ o.shader.lightingPasses ∧
        o.shader.source 0 [] l.config.sourceOptions = .ok text ∧ o.source? 0 = some text := by
  rw [run_cons]
  exact (screenAlone (start_loaded ..) twoShaders_sound rfl screen_loaded).load_stale
    (step_sound twoShaders_sound (.loadShader "Screen"))

end Session

end SurfaceShading
