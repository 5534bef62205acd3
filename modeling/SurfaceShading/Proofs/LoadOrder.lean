/-
  The order of loading does not matter. A library may load shaders one by one, in batches, or
  all at once, with compilations in between; if nothing fails and nothing is left pending, the
  shaders that were asked for determine its models and the source of every pass
  (`Session.loads_agree`).

  One pass of the argument is that what is registered is what the shaders declare, in whatever
  order they came. The other is that nothing stays out of date: while no request fails, a
  library is dirty only if some shader is pending, and every shader is built or pending
  (`Loaded`), so at the end all sources were generated for the models of the end.
-/
import SurfaceShading.Proofs.Library.Declared
import SurfaceShading.Proofs.Progress.Library
import SurfaceShading.Proofs.Session

namespace SurfaceShading

/-- A request that loads shaders. -/
inductive Load where
  | register (names : List String)
  | compile
  | load (name : String)

namespace Load

def operation : Load → Operation
  | register names => .registerShaders names
  | compile => .compilePending
  | load name => .loadShader name

/-- The shaders that a request asks for. -/
def names : Load → List String
  | register names => names
  | compile => []
  | load name => [name]

end Load

namespace Session

/-- The session after some loads. -/
def loads (s : Session) (steps : List Load) : Session := s.run (steps.map Load.operation)

/-- None of some loads is answered with an error. -/
def LoadsOk : Session → List Load → Prop
  | _, [] => True
  | s, step :: rest => (s.perform step.operation).1 = .ok () ∧ (s.step step.operation).LoadsOk rest

end Session

/-- A library that has loaded some shaders without a failure. -/
structure Library.Loaded (base : Library) (disk : Disk) (names : List String) (l : Library)
    (h : Host) : Prop where
  sound : l.Sound h.device
  idle : l.registry.state = .idle
  faithful : Faithful base disk l h
  known : ∀ name, l.Knows name ↔ name ∈ names
  waits : ∀ name e, l.shaders.get? name = some e → e.built = true ∨ name ∈ l.pending
  dirty : l.registry.dirty = true → l.pending ≠ []

namespace Library.Loaded

variable {base l l' : Library} {disk : Disk} {h h' : Host} {names : List String}

/-- Once no shader is pending, all that were asked for are built, each as it is declared. -/
theorem built_declared (loaded : Loaded base disk names l h) (settled : l.pending = [])
    {name : String} (mem : name ∈ names) :
    ∃ e, l.shaders.get? name = some e ∧ e.built = true ∧ ∃ definition,
      base.Declared disk name definition ∧ Shader.ofDefinition definition
        (name == base.config.sharedShader) base.config.bufferLimit = .ok e.object.shader := by
  obtain ⟨e, there⟩ := (loaded.known name).2 mem
  refine ⟨e, there, (loaded.waits name e there).resolve_right ?_, loaded.faithful.declared name e
    there⟩
  rw [settled]
  exact List.not_mem_nil

/-- The source that a pass of a loaded library holds is the one for the registered models, once
no shader is pending. -/
theorem source?_eq (loaded : Loaded base disk names l h) (settled : l.pending = [])
    {name : String} {e : ShaderEntry} (there : l.shaders.get? name = some e) (index : Nat) :
    e.object.source? index =
      (e.object.shader.source index l.registry.models l.config.sourceOptions).toOption := by
  have entry := loaded.sound.entry there
  have clean : l.registry.dirty = false := Bool.eq_false_iff.2 fun dirty =>
    loaded.dirty dirty settled
  have built : e.built = true := (loaded.waits name e there).resolve_right (by simp [settled])
  cases holds : e.object.source? index with
  | some text =>
    obtain ⟨models, is⟩ := entry.generated index text holds
    by_cases lights : index ∈ e.object.shader.lightingPasses
    · obtain ⟨text', current, holds'⟩ := entry.lit clean built index lights
      rw [current]
      exact holds.symm.trans holds'
    · rw [Shader.source_of_not_lighting lights _ models, is]
      rfl
  | none =>
    cases is : e.object.shader.source index l.registry.models l.config.sourceOptions with
    | error _ => rfl
    | ok text =>
      have some := (ShaderObject.isCompiled_iff entry.fits).1 (entry.compiled built) index
        (Shader.lt_passCount_of_source is)
      rw [ShaderObject.source?, Option.map_eq_none_iff] at holds
      rw [holds] at some
      cases some

theorem registerShaders (loaded : Loaded base disk names l h) (more : List String) :
    Attempt.Ends (Library.registerShaders more) l h fun r l' h' => (∃ n, r = .ok n) →
      Loaded base disk (names ++ more) l' h' := by
  refine (registerShaders_ends more l h loaded.idle).mono ?_
  rintro r l' h' ⟨gathered, others, all⟩ ⟨n, ok⟩
  refine ⟨gathered.moves.sound loaded.sound, gathered.state.trans loaded.idle,
    gathered.moves.preserve Faithful.move loaded.faithful, fun name => ?_, fun name e there => ?_,
    fun dirty => ?_⟩
  · rw [List.mem_append, ← loaded.known]
    constructor
    · rintro ⟨e, there⟩
      by_cases mem : name ∈ more
      · exact .inr mem
      · exact .inl ⟨e, (others name mem).symm.trans there⟩
    · rintro (knows | mem)
      · exact gathered.knows knows
      · exact all n ok name mem
  · rcases gathered.added there with old | ⟨_, _, queued⟩
    · exact (loaded.waits name e old).imp id (gathered.queued name)
    · exact .inr queued
  · rcases gathered.dirty dirty with dirty | nonempty
    · obtain ⟨name, mem⟩ := List.exists_mem_of_ne_nil _ (loaded.dirty dirty)
      exact List.ne_nil_of_mem (gathered.queued name mem)
    · exact nonempty

theorem compilePending (loaded : Loaded base disk names l h) :
    Attempt.Ends Library.compilePending l h fun r l' h' => r = .ok () →
      Loaded base disk names l' h' := by
  refine (compilePending_ends l h loaded.sound loaded.idle).mono ?_
  rintro r l' h' compiled ok
  obtain ⟨clean, _⟩ := compiled.done ok
  refine ⟨compiled.moves.sound loaded.sound, compiled.idle,
    compiled.moves.preserve Faithful.move loaded.faithful, fun name => ?_, fun name e' there' => ?_,
    fun dirty => ?_⟩
  · rw [← loaded.known]
    constructor
    · rintro ⟨e', there'⟩
      cases there : l.shaders.get? name with
      | none => rw [compiled.known there] at there'; cases there'
      | some e => exact ⟨e, there⟩
    · rintro ⟨e, there⟩
      obtain ⟨e', there', _⟩ := compiled.moves.entry there
      exact ⟨e', there'⟩
  · cases there : l.shaders.get? name with
    | none => rw [compiled.known there] at there'; cases there'
    | some e =>
      exact .inl ((compiled.built ok there there').2 (loaded.waits name e there).symm)
  · rw [clean] at dirty
    cases dirty

theorem loadShader (loaded : Loaded base disk names l h) (name : String) :
    Attempt.Ends (Library.loadShader name) l h fun r l' h' => (∃ o, r = .ok o) →
      Loaded base disk (names ++ [name]) l' h' := by
  refine (loadShader_ends name l h loaded.sound loaded.idle).mono ?_
  rintro r l' h' (⟨o, found, _, rfl, builds⟩ | ⟨_, new⟩) ⟨a, ok⟩
  · have knows : l'.Knows name := by
      obtain ⟨e, there, _⟩ := Option.bind_eq_some_iff.1 found
      exact ⟨e, there⟩
    refine { loaded with
      sound := loaded.sound.advance builds.device
      faithful := Faithful.move (.world builds) loaded.faithful
      known := fun other => ?_ }
    rw [List.mem_append, List.mem_singleton, ← loaded.known]
    exact ⟨.inl, fun is => is.elim id fun eq => eq ▸ knows⟩
  · obtain ⟨clean, pending, _, e', there', built⟩ := new.done a ok
    refine ⟨new.moves.sound loaded.sound, new.idle,
      new.moves.preserve Faithful.move loaded.faithful, fun other => ?_, fun other e there => ?_,
      fun dirty => ?_⟩
    · rw [List.mem_append, List.mem_singleton, ← loaded.known]
      constructor
      · rintro ⟨e, there⟩
        by_cases eq : other = name
        · exact .inr eq
        · obtain ⟨e₀, there₀, _⟩ := new.others other eq e there
          exact .inl ⟨e₀, there₀⟩
      · rintro (⟨e, there⟩ | rfl)
        · obtain ⟨e₁, there₁, _⟩ := new.moves.entry there
          exact ⟨e₁, there₁⟩
        · exact ⟨e', there'⟩
    · by_cases eq : other = name
      · subst eq
        cases there'.symm.trans there
        exact .inl built
      · obtain ⟨e₀, there₀, same⟩ := new.others other eq e there
        rw [same, pending, List.mem_filter]
        exact (loaded.waits other e₀ there₀).imp id fun mem => ⟨mem, decide_eq_true eq⟩
    · rw [clean] at dirty
      cases dirty

/-- Two libraries that loaded the same shaders and have none pending hold the same models and
the same sources. -/
theorem agree {names' : List String} (loaded : Loaded base disk names l h)
    (loaded' : Loaded base disk names' l' h') (same : ∀ name, name ∈ names ↔ name ∈ names')
    (noConflict : NoConflict base disk (· ∈ names)) (settled : l.pending = [])
    (settled' : l'.pending = []) :
    l.registry.models = l'.registry.models ∧
      ∀ name index, (l.shader? name).bind (fun o => o.source? index) =
        (l'.shader? name).bind fun o => o.source? index := by
  have known (name : String) : l.Knows name ↔ l'.Knows name := by
    rw [loaded.known, same, loaded'.known]
  have models : l.registry.models = l'.registry.models :=
    loaded.faithful.models_eq loaded'.faithful loaded.sound.models_sorted
      loaded'.sound.models_sorted known fun is is' =>
        noConflict ((loaded.known _).1 is) ((loaded.known _).1 is')
  refine ⟨models, fun name index => ?_⟩
  unfold shader?
  cases there : l.shaders.get? name with
  | none =>
    cases there' : l'.shaders.get? name with
    | none => rfl
    | some e' =>
      obtain ⟨e, is⟩ := (known name).2 ⟨e', there'⟩
      cases there.symm.trans is
  | some e =>
    obtain ⟨e', there'⟩ := (known name).1 ⟨e, there⟩
    rw [there', Option.map_some, Option.map_some, Option.bind_some, Option.bind_some,
      loaded.source?_eq settled there, loaded'.source?_eq settled' there',
      loaded.faithful.shader_eq loaded'.faithful there there', models, loaded.faithful.config,
      loaded'.faithful.config]

end Library.Loaded

namespace Session

variable {base : Library} {disk : Disk} {names : List String} {s : Session}

theorem step_loaded (loaded : Library.Loaded base disk names s.library s.host) (step : Load)
    (ok : (s.perform step.operation).1 = .ok ()) :
    Library.Loaded base disk (names ++ step.names) (s.step step.operation).library
      (s.step step.operation).host := by
  cases step with
  | register more =>
    exact (s.ends_perform (.registerShaders more)).1
      (.done_of_ok (loaded.registerShaders more)) ok
  | compile =>
    rw [Load.names, List.append_nil]
    exact (s.ends_perform .compilePending).1 loaded.compilePending ok
  | load name =>
    exact (s.ends_perform (.loadShader name)).1 (.done_of_ok (loaded.loadShader name)) ok

theorem loads_loaded (steps : List Load)
    (loaded : Library.Loaded base disk names s.library s.host) (ok : s.LoadsOk steps) :
    Library.Loaded base disk (names ++ steps.flatMap Load.names) (s.loads steps).library
      (s.loads steps).host := by
  induction steps generalizing s names with
  | nil =>
    rw [List.flatMap_nil, List.append_nil]
    exact loaded
  | cons step rest ih =>
    rw [List.flatMap_cons, ← List.append_assoc]
    exact ih (step_loaded loaded step ok.1) ok.2

/-! ## Loads that cannot fail -/

/-- A load makes no other moves than those of a library. -/
theorem step_moves (sound : s.Sound) (step : Load) :
    Library.Moves s.library s.host (s.step step.operation).library
      (s.step step.operation).host := by
  refine (s.ends_perform step.operation).1 (?_ : Attempt.Ends _ _ _ fun _ => Library.Moves _ _)
  cases step with
  | register more =>
    exact .done ((Library.registerShaders_ends more _ _ sound.idle).mono
      fun _ _ _ ends => ends.1.moves)
  | compile =>
    exact (Library.compilePending_ends _ _ sound.library sound.idle).mono
      fun _ _ _ compiled => compiled.moves
  | load name =>
    refine .done ((Library.loadShader_ends name _ _ sound.library sound.idle).mono ?_)
    rintro _ l' h' (⟨_, _, _, rfl, builds⟩ | ⟨_, new⟩)
    · exact (Library.Move.world builds).moves
    · exact new.moves

theorem step_ok (sound : s.Sound) (willing : s.library.Willing s.host) (step : Load)
    (offers : ∀ name ∈ step.names, s.library.Offers name) :
    (s.perform step.operation).1 = .ok () := by
  have ok : Attempt.Succeeds step.operation.attempt s.library s.host := by
    cases step with
    | register more => exact (Library.registerShaders_ok more sound.idle offers).done
    | compile => exact Library.compilePending_ok willing sound.idle
    | load name =>
      exact (Library.loadShader_ok willing sound.idle (offers name List.mem_cons_self)).done
  exact (s.ends_perform step.operation).1 ok.answer

/-- Where nothing can fail to compile, every load of shaders that the sources declare is
answered without an error. -/
theorem loads_ok (steps : List Load) (sound : s.Sound) (willing : s.library.Willing s.host)
    (offers : ∀ name ∈ steps.flatMap Load.names, s.library.Offers name) : s.LoadsOk steps := by
  induction steps generalizing s with
  | nil => trivial
  | cons step rest ih =>
    rw [List.flatMap_cons] at offers
    have moves := step_moves sound step
    have first : (s.perform step.operation).1 = .ok () :=
      step_ok sound willing step fun name mem => offers name (List.mem_append_left _ mem)
    refine ⟨first, ih (step_sound sound _) (willing.moves moves) fun name mem => ?_⟩
    exact (offers name (List.mem_append_right _ mem)).congr moves.settings.2 moves.settings.1

theorem start_loaded (config : Config) (texts : OrderedMap String String) (loader : Loader)
    (disk : Disk) : Library.Loaded (start config texts loader disk).library disk []
      (start config texts loader disk).library (start config texts loader disk).host where
  sound := (start_sound config texts loader disk).library
  idle := rfl
  faithful := .ofNothing (h := (start config texts loader disk).host) (fun _ => rfl) fun _ => rfl
  known _ := ⟨fun ⟨_, there⟩ => (nomatch there), nofun⟩
  waits _ _ there := nomatch there
  dirty dirty := nomatch dirty

/-! ## Nothing left pending -/

/-- Shaders that are loaded one by one do not leave one pending. -/
theorem load_pending (sound : s.Sound) (name : String)
    (ok : (s.perform (.loadShader name)).1 = .ok ()) (settled : s.library.pending = []) :
    (s.step (.loadShader name)).library.pending = [] := by
  refine (s.ends_perform (.loadShader name)).1 (.done_of_ok (P := fun l _ => l.pending = [])
    ((Library.loadShader_ends name s.library s.host sound.library sound.idle).mono ?_)) ok
  rintro r l' h' (⟨_, _, _, rfl, _⟩ | ⟨_, new⟩) ⟨o, ok⟩
  · exact settled
  · rw [(new.done o ok).2.1, settled]
    rfl

theorem loads_pending (names : List String) (sound : s.Sound)
    (ok : s.LoadsOk (names.map .load)) (settled : s.library.pending = []) :
    (s.loads (names.map .load)).library.pending = [] := by
  induction names generalizing s with
  | nil => exact settled
  | cons name rest ih =>
    exact ih (step_sound sound _) ok.2 (load_pending sound name ok.1 settled)

/-- Nor does a batch that is compiled. -/
theorem batch_pending (names : List String) (sound : s.Sound)
    (ok : s.LoadsOk [.register names, .compile]) :
    (s.loads [.register names, .compile]).library.pending = [] := by
  have sound₁ := step_sound sound (.registerShaders names)
  have compiled := (Session.ends_perform _ .compilePending).1
    (Library.compilePending_ends _ _ sound₁.library sound₁.idle)
  exact (compiled.done ok.2.1).2

/-! ## Two shaders -/

/-- A shared lighting shader of one pass. -/
def screenText : String :=
  "Shader \"Screen\" \x7b Pass \x7b HLSLPROGRAM\n#pragma vertex pass\n#pragma fragment pass\n" ++
    "ENDHLSL \x7d \x7d"

/-- A deferred shader that declares a shading model. -/
def toonText : String :=
  "Shader \"Toon\" \x7b RenderQueue \"Deferred\"\n" ++
    "ShadingModel \x7b shadingmodel = 7; BRDF = Toon(input); BRDF \x7b return input; \x7d \x7d\n" ++
    "Pass \x7b HLSLPROGRAM\n#pragma vertex pass\n#pragma fragment pass\nENDHLSL \x7d \x7d"

/-- What the two texts declare. The second pass of the deferred shader is that of the shared
one. -/
def screenDefinition : Definition :=
  ⟨"Screen", .forward, [], [⟨"Pass0", .forward, "pass", "pass", ""⟩], none⟩

def toonDefinition : Definition :=
  ⟨"Toon", .deferred, [], [⟨"Pass0", .deferred, "pass", "pass", ""⟩,
    ⟨"Pass0", .deferred, "pass", "pass", ""⟩], some ⟨7, "Toon(input)", " return input; "⟩⟩

def twoTexts : OrderedMap String String :=
  (OrderedMap.empty.insert "Screen" screenText).insert "Toon" toonText

/-- A new library of the two texts. -/
def twoShaders : Session := start .standard twoTexts (.stub [] []) .empty

theorem screen_parsed : (Definition.parseComplete screenText "Screen" (.ok screenText)).result =
    .ok screenDefinition :=
  ok_of_toOption (by decide +kernel)

theorem toon_parsed : (Definition.parseComplete toonText "Screen" (.ok screenText)).result =
    .ok toonDefinition :=
  ok_of_toOption (by decide +kernel)

theorem twoShaders_read {disk : Disk} {name text : String}
    (read : twoShaders.library.sources.read disk name = .ok text) :
    (name = "Screen" ∧ text = screenText) ∨ (name = "Toon" ∧ text = toonText) := by
  change ShaderSources.read ⟨twoTexts, none⟩ disk name = .ok text at read
  unfold ShaderSources.read twoTexts at read
  rw [OrderedMap.get?_insert, OrderedMap.get?_insert] at read
  split at read
  · next known =>
    cases read
    split at known
    · next eq => cases known; exact .inr ⟨eq, rfl⟩
    · split at known
      · next eq => cases known; exact .inl ⟨eq, rfl⟩
      · cases known
  · cases read

theorem twoShaders_declares (disk : Disk) :
    twoShaders.library.Declares disk "Screen" screenDefinition ∧
      twoShaders.library.Declares disk "Toon" toonDefinition :=
  ⟨⟨screenText, rfl, screen_parsed⟩, ⟨toonText, rfl, toon_parsed⟩⟩

theorem eq_of_twoShaders_declares {disk : Disk} {name : String} {definition : Definition}
    (declares : twoShaders.library.Declares disk name definition) :
    (name = "Screen" ∧ definition = screenDefinition) ∨
      (name = "Toon" ∧ definition = toonDefinition) := by
  have declared {definition : Definition}
      (declares : twoShaders.library.Declares disk name definition) :
      twoShaders.library.Declared disk name definition := ⟨disk, .refl disk, declares⟩
  have unique {definition' : Definition}
      (declares' : twoShaders.library.Declares disk name definition') : definition = definition' :=
    (declared declares).unique (declared declares')
  obtain ⟨text, read, _⟩ := id declares
  rcases twoShaders_read read with ⟨rfl, _⟩ | ⟨rfl, _⟩
  · exact .inl ⟨rfl, unique (twoShaders_declares disk).1⟩
  · exact .inr ⟨rfl, unique (twoShaders_declares disk).2⟩

theorem twoShaders_offers (name : String) (mem : name = "Screen" ∨ name = "Toon") :
    twoShaders.library.Offers name := by
  intro disk
  rcases mem with rfl | rfl
  · exact ⟨_, _, (twoShaders_declares disk).1, rfl⟩
  · exact ⟨_, _, (twoShaders_declares disk).2, rfl⟩

theorem screen_compilable {shader : Shader} {limit : UInt32} {options : SourceOptions}
    (made : Shader.ofDefinition screenDefinition true limit = .ok shader) :
    shader.Compilable options := by
  obtain ⟨definition, shared⟩ := Shader.of_made made
  refine Shader.compilable_of_entries (fun index lt => ⟨.lighting, ?_⟩) ?_ options
  · unfold Shader.passKind?
    rw [if_pos lt, shared]
    rfl
  · rw [definition]
    decide +kernel

theorem toon_compilable {shader : Shader} {limit : UInt32} {options : SourceOptions}
    (made : Shader.ofDefinition toonDefinition false limit = .ok shader) :
    shader.Compilable options := by
  obtain ⟨definition, shared⟩ := Shader.of_made made
  refine Shader.compilable_of_entries (fun index lt => ?_) ?_ options
  · unfold Shader.passKind?
    rw [if_pos lt, shared, definition]
    unfold Shader.passCount at lt
    rw [definition] at lt
    match index, lt with
    | 0, _ => exact ⟨.gbuffer, rfl⟩
    | 1, _ => exact ⟨.lighting, rfl⟩
  · rw [definition]
    decide +kernel

theorem twoShaders_willing : twoShaders.library.Willing twoShaders.host where
  sound := (start_sound ..).library
  compilable :=
    { noCache := rfl
      declared := fun disk name definition shader declares made => by
        rcases eq_of_twoShaders_declares declares with ⟨rfl, rfl⟩ | ⟨rfl, rfl⟩
        · exact screen_compilable made
        · exact toon_compilable made
      known := fun _ _ is => nomatch is }
  compiles := ⟨fun _ _ _ _ => rfl, rfl⟩
  makes := fun _ _ => rfl

/-- The deferred shader as it is held once both are registered. -/
theorem toon_held : ((twoShaders.run [.registerShaders ["Toon", "Screen"]]).library.shaders.get?
    "Toon").map (fun e => e.object.shader) = some ⟨toonDefinition, .ofProperties [], false⟩ := by
  have ok := step_ok (start_sound ..) twoShaders_willing (.register ["Toon", "Screen"])
    fun name mem => twoShaders_offers name (by simpa [Load.names, or_comm] using mem)
  have loaded := step_loaded (start_loaded ..) (.register ["Toon", "Screen"]) ok
  obtain ⟨e, there⟩ := (loaded.known "Toon").2 List.mem_cons_self
  obtain ⟨definition, ⟨_, _, declares⟩, made⟩ := loaded.faithful.declared "Toon" e there
  obtain rfl : definition = toonDefinition := by
    rcases eq_of_twoShaders_declares declares with ⟨eq, _⟩ | ⟨_, eq⟩
    · exact absurd eq (by decide)
    · exact eq
  rw [run_single]
  refine (congrArg (Option.map _) there).trans ?_
  exact congrArg some (Except.ok.inj made).symm

theorem twoShaders_noConflict (disk : Disk) (names : String → Prop) :
    Library.NoConflict twoShaders.library disk names := by
  rintro _ _ _ _ model model' _ _ ⟨_, _, declares⟩ ⟨_, _, declares'⟩ is is' _
  rcases eq_of_twoShaders_declares declares with ⟨_, rfl⟩ | ⟨_, rfl⟩
  · cases is
  · rcases eq_of_twoShaders_declares declares' with ⟨_, rfl⟩ | ⟨_, rfl⟩
    · cases is'
    · exact Option.some.inj (is.symm.trans is')

/-- **The order of loading does not matter.** Two new libraries of the same settings, texts and
files load the same shaders, each in its own order and batches and without a failure, until none
is pending. If no two of these shaders declare one number for different models, both hold the
same models in the end, and the same source for every pass. -/
theorem loads_agree (config : Config) (texts : OrderedMap String String)
    (loader loader' : Loader) (disk : Disk) (steps steps' : List Load)
    (ok : (start config texts loader disk).LoadsOk steps)
    (ok' : (start config texts loader' disk).LoadsOk steps')
    (same : ∀ name, name ∈ steps.flatMap Load.names ↔ name ∈ steps'.flatMap Load.names)
    (settled : ((start config texts loader disk).loads steps).library.pending = [])
    (settled' : ((start config texts loader' disk).loads steps').library.pending = [])
    (noConflict : Library.NoConflict (start config texts loader disk).library disk
      (· ∈ steps.flatMap Load.names)) :
    let l := ((start config texts loader disk).loads steps).library
    let l' := ((start config texts loader' disk).loads steps').library
    l.registry.models = l'.registry.models ∧
      ∀ name index, (l.shader? name).bind (fun o => o.source? index) =
        (l'.shader? name).bind fun o => o.source? index := by
  have loaded := loads_loaded steps (start_loaded config texts loader disk) ok
  have loaded' := loads_loaded steps' (start_loaded config texts loader' disk) ok'
  exact loaded.agree loaded' same noConflict settled settled'

/-- The two shaders in one batch, the deferred one first, and one by one, the shared one first,
so that its lighting pass is made anew. -/
theorem twoShaders_agree :
    twoShaders.LoadsOk [.register ["Toon", "Screen"], .compile] ∧
    twoShaders.LoadsOk [.load "Screen", .load "Toon"] ∧
    let l := (twoShaders.loads [.register ["Toon", "Screen"], .compile]).library
    let l' := (twoShaders.loads [.load "Screen", .load "Toon"]).library
    l.registry.models = l'.registry.models ∧
      ∀ name index, (l.shader? name).bind (fun o => o.source? index) =
        (l'.shader? name).bind fun o => o.source? index := by
  have sound : twoShaders.Sound := start_sound ..
  have batch : twoShaders.LoadsOk [.register ["Toon", "Screen"], .compile] :=
    loads_ok _ sound twoShaders_willing fun name mem => twoShaders_offers name (by
      simpa [Load.names, or_comm] using mem)
  have singly : twoShaders.LoadsOk [.load "Screen", .load "Toon"] :=
    loads_ok _ sound twoShaders_willing fun name mem => twoShaders_offers name (by
      simpa [Load.names] using mem)
  have same (name : String) : name ∈ [Load.register ["Toon", "Screen"], .compile].flatMap Load.names
      ↔ name ∈ [Load.load "Screen", .load "Toon"].flatMap Load.names := by
    simp [Load.names, or_comm]
  exact ⟨batch, singly, loads_agree .standard twoTexts (.stub [] []) (.stub [] []) .empty _ _ batch
    singly same (batch_pending _ sound batch) (loads_pending ["Screen", "Toon"] sound singly rfl)
    (twoShaders_noConflict _ _)⟩

/-- Loading shaders one by one, each time making the lighting passes of the others anew, comes
to the same models and sources as registering all of them and compiling once. -/
theorem one_by_one_like_at_once (config : Config) (texts : OrderedMap String String)
    (loader : Loader) (disk : Disk) (names : List String)
    (ok : (start config texts loader disk).LoadsOk (names.map .load))
    (ok' : (start config texts loader disk).LoadsOk [.register names, .compile])
    (noConflict : Library.NoConflict (start config texts loader disk).library disk (· ∈ names)) :
    let l := ((start config texts loader disk).loads (names.map .load)).library
    let l' := ((start config texts loader disk).loads [.register names, .compile]).library
    l.registry.models = l'.registry.models ∧
      ∀ name index, (l.shader? name).bind (fun o => o.source? index) =
        (l'.shader? name).bind fun o => o.source? index := by
  have started := start_loaded config texts loader disk
  have sound := start_sound config texts loader disk
  have loaded := loads_loaded (names.map .load) started ok
  have loaded' := loads_loaded [.register names, .compile] started ok'
  have each : (names.map Load.load).flatMap Load.names = names := by
    simp [List.flatMap_map, Load.names]
  have all : [Load.register names, Load.compile].flatMap Load.names = names := by
    simp [Load.names]
  rw [each] at loaded
  rw [all] at loaded'
  exact loaded.agree loaded' (fun _ => Iff.rfl) noConflict (loads_pending names sound ok rfl)
    (batch_pending names sound ok')

end Session

end SurfaceShading
