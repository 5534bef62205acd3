/-
  The passes of one shader object, and what compiling them and making their pipelines does.

  Work on passes only ever replaces a source by the one for the models at hand
  (`ShaderObject.Reworked`), and a pipeline handle that a pass holds belongs to the bytecode
  that the pass holds (`ShaderObject.Recorded`); both hold however the work ends. A build that
  does not fail leaves every pass current and with a pipeline.

  Making lighting passes anew is different, because a pass is compiled before its new pipeline
  is made. When the device refuses the pipeline the pass is left without one; no other failure
  takes a pipeline away (`rebuildLighting_ends`).
-/
import SurfaceShading.Proofs.World.Shaders

namespace SurfaceShading

/-- The text of a pass that does not light does not depend on the models. -/
theorem Source.generate_of_plain {kind : PassKind} (plain : kind.usesModels = false)
    (definition : Definition) (index : Nat) (parameters : List Parameter)
    (models models' : List ShadingModel) (options : SourceOptions) :
    generate definition index kind parameters models options =
      generate definition index kind parameters models' options := by
  have inputs : passInputs definition kind models = passInputs definition kind models' := by
    cases kind with
    | gbuffer => rfl
    | lighting => cases plain
    | forward => rfl
  unfold generate
  rw [inputs]

namespace Shader

/-- A shader that is made of a definition holds it, with the layout of its properties. -/
theorem eq_of_ofDefinition {definition : Definition} {shared : Bool} {limit : UInt32}
    {shader : Shader} (made : ofDefinition definition shared limit = .ok shader) :
    shader = ⟨definition, .ofProperties definition.properties, shared⟩ := by
  unfold ofDefinition at made
  dsimp only at made
  split at made
  · cases made
  · exact (Except.ok.inj made).symm

theorem lt_passCount_of_passKind? {s : Shader} {index : Nat} {kind : PassKind}
    (is : s.passKind? index = some kind) : index < s.passCount := by
  unfold passKind? at is
  split at is
  · next lt => exact lt
  · cases is

theorem requireKind_eq_ok {s : Shader} {index : Nat} {kind : PassKind} :
    s.requireKind index = .ok kind ↔ s.passKind? index = some kind := by
  unfold requireKind
  cases s.passKind? index with
  | none => exact ⟨nofun, nofun⟩
  | some other => exact ⟨fun eq => (by cases eq; rfl), fun eq => (by cases eq; rfl)⟩

theorem source_eq (s : Shader) (index : Nat) (models : List ShadingModel)
    (options : SourceOptions) :
    s.source index models options = match s.passKind? index with
      | some kind =>
        .ok (Source.generate s.definition index kind s.layout.parameters models options)
      | none => .error (.unsupportedPass s.name index) := by
  unfold source requireKind
  cases s.passKind? index <;> rfl

theorem source_eq_error {s : Shader} {index : Nat} {models : List ShadingModel}
    {options : SourceOptions} {e : Error} (is : s.source index models options = .error e) :
    e = .unsupportedPass s.name index := by
  rw [source_eq] at is
  split at is
  · cases is
  · exact (Except.error.inj is).symm

theorem source_eq_ok {s : Shader} {index : Nat} {models : List ShadingModel}
    {options : SourceOptions} {text : String} :
    s.source index models options = .ok text ↔ ∃ kind, s.passKind? index = some kind ∧
      Source.generate s.definition index kind s.layout.parameters models options = text := by
  unfold source
  simp only [except_bind_eq_ok, requireKind_eq_ok, Except.ok.injEq]

theorem lt_passCount_of_source {s : Shader} {index : Nat} {models : List ShadingModel}
    {options : SourceOptions} {text : String} (is : s.source index models options = .ok text) :
    index < s.passCount :=
  let ⟨_, kind, _⟩ := source_eq_ok.1 is
  lt_passCount_of_passKind? kind

theorem mem_lightingPasses {s : Shader} {index : Nat} :
    index ∈ s.lightingPasses ↔
      ∃ kind, s.passKind? index = some kind ∧ kind.usesModels = true := by
  unfold lightingPasses
  rw [List.mem_filter, List.mem_range, Option.any_eq_true]
  exact ⟨fun mem => mem.2, fun ⟨kind, is, uses⟩ => ⟨lt_passCount_of_passKind? is, kind, is, uses⟩⟩

theorem lt_passCount_of_mem_lightingPasses {s : Shader} {index : Nat}
    (mem : index ∈ s.lightingPasses) : index < s.passCount :=
  let ⟨_, kind, _⟩ := mem_lightingPasses.1 mem
  lt_passCount_of_passKind? kind

/-- The source of a pass that does not light does not depend on the models. -/
theorem source_of_not_lighting {s : Shader} {index : Nat} (plain : index ∉ s.lightingPasses)
    (models models' : List ShadingModel) (options : SourceOptions) :
    s.source index models options = s.source index models' options := by
  cases is : s.passKind? index with
  | none => simp only [source_eq, is]
  | some kind =>
    have noModels : kind.usesModels = false :=
      Bool.eq_false_iff.2 fun uses => plain (mem_lightingPasses.2 ⟨kind, is, uses⟩)
    simp only [source_eq, is]
    rw [Source.generate_of_plain noModels _ _ _ models models']

end Shader

namespace ShaderObject

/-! ## States of passes -/

/-- The object has one state for each pass of its shader. -/
def Fits (o : ShaderObject) : Prop := o.passes.length = o.shader.passCount

/-- A pass is compiled from its source for the given models. -/
def Current (o : ShaderObject) (models : List ShadingModel) (options : SourceOptions)
    (index : Nat) : Prop :=
  ∃ text, o.shader.source index models options = .ok text ∧ o.source? index = some text

/-- The pipelines that passes hold were made from the bytecode that they hold. -/
def Recorded (o : ShaderObject) (d : Device) : Prop :=
  ∀ index pass handle, o.compiled? index = some pass → pass.pipeline = some handle →
    ∃ descriptor, d.Made handle descriptor ∧
      descriptor.vertex = pass.vertex ∧ descriptor.fragment = pass.fragment

/-- Every pass is compiled and has a pipeline. -/
def Drawable (o : ShaderObject) : Prop :=
  ∀ index < o.shader.passCount, (o.pipeline? index).isSome

theorem compiled?_new (id : ShaderId) (shader : Shader) (index : Nat) :
    (new id shader).compiled? index = none := by
  unfold compiled? new
  rw [List.getElem?_replicate]
  split <;> rfl

theorem fits_new (id : ShaderId) (shader : Shader) : (new id shader).Fits :=
  List.length_replicate

theorem length_setPass (o : ShaderObject) (index : Nat) (pass : CompiledPass) :
    (o.setPass index pass).passes.length = o.passes.length := List.length_set

theorem Fits.setPass {o : ShaderObject} (fits : o.Fits) (index : Nat) (pass : CompiledPass) :
    (o.setPass index pass).Fits := (o.length_setPass index pass).trans fits

theorem compiled?_setPass_self {o : ShaderObject} {index : Nat} (lt : index < o.passes.length)
    (pass : CompiledPass) : (o.setPass index pass).compiled? index = some pass := by
  unfold compiled? setPass
  rw [List.getElem?_set_self lt]
  rfl

theorem compiled?_setPass_of_ne {o : ShaderObject} {index index' : Nat} (ne : index' ≠ index)
    (pass : CompiledPass) : (o.setPass index pass).compiled? index' = o.compiled? index' := by
  unfold compiled? setPass
  rw [List.getElem?_set_ne ne.symm]

theorem source?_setPass_self {o : ShaderObject} {index : Nat} (lt : index < o.passes.length)
    (pass : CompiledPass) : (o.setPass index pass).source? index = some pass.source := by
  rw [source?, compiled?_setPass_self lt, Option.map_some]

theorem pipeline?_setPass_self {o : ShaderObject} {index : Nat} (lt : index < o.passes.length)
    (pass : CompiledPass) : (o.setPass index pass).pipeline? index = pass.pipeline := by
  rw [pipeline?, compiled?_setPass_self lt, Option.bind_some]

theorem pipeline?_congr {o o' : ShaderObject} {index : Nat}
    (same : o'.compiled? index = o.compiled? index) : o'.pipeline? index = o.pipeline? index := by
  rw [pipeline?, same, pipeline?]

theorem lt_length_of_compiled? {o : ShaderObject} {index : Nat} {pass : CompiledPass}
    (is : o.compiled? index = some pass) : index < o.passes.length := by
  unfold compiled? at is
  cases get : o.passes[index]? with
  | none => rw [get] at is; cases is
  | some _ => exact (List.getElem?_eq_some_iff.1 get).1

theorem Fits.lt_length_of_source {o : ShaderObject} (fits : o.Fits) {index : Nat}
    {models : List ShadingModel} {options : SourceOptions} {text : String}
    (is : o.shader.source index models options = .ok text) : index < o.passes.length := by
  have lt : index < o.shader.passCount := Shader.lt_passCount_of_source is
  rw [fits]
  exact lt

/-- A state that a pass has after a change is the new one or was there before. -/
theorem compiled?_setPass_cases {o : ShaderObject} {index index' : Nat} {pass pass' : CompiledPass}
    (is : (o.setPass index pass).compiled? index' = some pass') :
    index' = index ∧ pass' = pass ∨ index' ≠ index ∧ o.compiled? index' = some pass' := by
  by_cases same : index' = index
  · subst same
    have lt := lt_length_of_compiled? is
    rw [length_setPass] at lt
    rw [compiled?_setPass_self lt] at is
    exact .inl ⟨rfl, (Option.some.inj is).symm⟩
  · rw [compiled?_setPass_of_ne same] at is
    exact .inr ⟨same, is⟩

theorem isCompiled_iff {o : ShaderObject} (fits : o.Fits) :
    o.isCompiled = true ↔ ∀ index < o.shader.passCount, (o.compiled? index).isSome := by
  unfold isCompiled compiled?
  rw [List.all_eq_true, ← fits]
  constructor
  · intro all index lt
    rw [List.getElem?_eq_getElem lt]
    exact all _ (List.getElem_mem lt)
  · intro all pass mem
    obtain ⟨index, lt, rfl⟩ := List.mem_iff_getElem.1 mem
    have is := all index lt
    rw [List.getElem?_eq_getElem lt] at is
    exact is

theorem isSome_compiled?_of_pipeline? {o : ShaderObject} {index : Nat}
    (some : (o.pipeline? index).isSome) : (o.compiled? index).isSome := by
  unfold pipeline? at some
  cases is : o.compiled? index with
  | none => rw [is] at some; cases some
  | some _ => rfl

theorem Drawable.isCompiled {o : ShaderObject} (drawable : o.Drawable) (fits : o.Fits) :
    o.isCompiled = true :=
  (isCompiled_iff fits).2 fun index lt => isSome_compiled?_of_pipeline? (drawable index lt)

theorem Current.congr {o o' : ShaderObject} {models : List ShadingModel}
    {options : SourceOptions} {index : Nat} (current : o.Current models options index)
    (shader : o'.shader = o.shader) (source : o'.source? index = o.source? index) :
    o'.Current models options index := by
  obtain ⟨text, is, compiled⟩ := current
  exact ⟨text, by rw [shader, is], by rw [source, compiled]⟩

theorem Recorded.mono {o : ShaderObject} {d d' : Device} (recorded : o.Recorded d)
    (sound : d.Sound) (advances : d.Advances d') : o.Recorded d' := by
  intro index pass handle is holds
  obtain ⟨descriptor, made, bytecode⟩ := recorded index pass handle is holds
  exact ⟨descriptor, advances.made sound made, bytecode⟩

theorem recorded_new (id : ShaderId) (shader : Shader) (d : Device) :
    (new id shader).Recorded d := by
  intro index pass handle is
  rw [compiled?_new] at is
  cases is

/-! ## One pass at a time -/

/-- What work on passes for some models may make of an object, be it finished or not. -/
structure Reworked (models : List ShadingModel) (options : SourceOptions) (o : ShaderObject)
    (h : Host) (o' : ShaderObject) (h' : Host) : Prop where
  id : o'.id = o.id
  shader : o'.shader = o.shader
  length : o'.passes.length = o.passes.length
  source : o.Fits → ∀ index, o'.source? index = o.source? index ∨ o'.Current models options index
  world : h.Builds h'
  recorded : h.device.Sound → o.Recorded h.device → o'.Recorded h'.device

namespace Reworked

variable {models : List ShadingModel} {options : SourceOptions}

theorem refl {o : ShaderObject} {h h' : Host} (world : h.Builds h') :
    Reworked models options o h o h' :=
  ⟨rfl, rfl, rfl, fun _ _ => .inl rfl, world, fun sound recorded =>
    recorded.mono sound world.device⟩

theorem fits {o o' : ShaderObject} {h h' : Host} (reworked : Reworked models options o h o' h')
    (fits : o.Fits) : o'.Fits := by
  unfold Fits
  rw [reworked.length, reworked.shader]
  exact fits

theorem trans {o o' o'' : ShaderObject} {h h' h'' : Host}
    (first : Reworked models options o h o' h')
    (second : Reworked models options o' h' o'' h'') :
    Reworked models options o h o'' h'' where
  id := second.id.trans first.id
  shader := second.shader.trans first.shader
  length := second.length.trans first.length
  source fits index := by
    rcases second.source (first.fits fits) index with same | current
    · rcases first.source fits index with same' | current
      · exact .inl (same.trans same')
      · exact .inr (current.congr second.shader same)
    · exact .inr current
  world := first.world.trans second.world
  recorded sound recorded :=
    second.recorded (first.world.device.sound sound) (first.recorded sound recorded)

/-- What was compiled stays compiled. -/
theorem isSome_compiled? {o o' : ShaderObject} {h h' : Host}
    (reworked : Reworked models options o h o' h') (fits : o.Fits) {index : Nat}
    (some : (o.compiled? index).isSome) : (o'.compiled? index).isSome := by
  have source : (o'.source? index).isSome := by
    rcases reworked.source fits index with same | ⟨text, _, is⟩
    · rw [same, source?, Option.isSome_map]; exact some
    · rw [is]; rfl
  rwa [source?, Option.isSome_map] at source

/-- What was current stays current. -/
theorem current {o o' : ShaderObject} {h h' : Host}
    (reworked : Reworked models options o h o' h') (fits : o.Fits) {index : Nat}
    (current : o.Current models options index) : o'.Current models options index :=
  (reworked.source fits index).elim (current.congr reworked.shader) fun is => is

end Reworked

variable {models : List ShadingModel} {target : CompileTarget}

/-- A stage that does not compile is no refusal of a pipeline. -/
theorem compileStage_ends (shader : Shader) (target : CompileTarget) (index : Nat)
    (source entry : String) (stage : Stage) (h : Host) :
    HostM.Ends (compileStage shader target index source entry stage) h fun r _ =>
      ∀ d, r ≠ .error (.device d) := by
  unfold compileStage
  rw [HostM.ends_bind]
  refine .of_forall fun r h => ?_
  cases r with
  | ok bytecode => exact nofun
  | error e =>
    dsimp only
    simp only [HostM.ends_bind, HostM.ends_pure]
    exact .of_forall fun _ _ => .of_forall fun _ _ => nofun

theorem writeSource_ends (shader : Shader) (target : CompileTarget) (index : Nat)
    (source : String) (h : Host) :
    HostM.Ends (writeSource shader target index source) h fun r _ =>
      ∀ d, r ≠ .error (.device d) := by
  unfold writeSource
  split
  · exact nofun
  · dsimp only
    rw [HostM.ends_bind]
    refine .of_forall fun r h => ?_
    cases r with
    | ok _ => exact nofun
    | error e => exact nofun

/-- How the compilation of a pass ends: with its source for the models and no pipeline, or with
an error and the object as it was. -/
inductive PassCompiled (index : Nat) (models : List ShadingModel) (options : SourceOptions)
    (o : ShaderObject) : Except Error Unit → ShaderObject → Prop where
  | compiled {text : String} {vertex fragment : Bytecode}
      (source : o.shader.source index models options = .ok text) :
      PassCompiled index models options o (.ok ())
        (o.setPass index ⟨text, vertex, fragment, none⟩)
  | failed {e : Error} (plain : ∀ d, e ≠ .device d) :
      PassCompiled index models options o (.error e) o

theorem compilePass_ends (index : Nat) (o : ShaderObject) (h : Host) :
    Attempt.Ends (compilePass index models target) o h fun r o' _ =>
      PassCompiled index models target.options o r o' := by
  simp only [compilePass, Attempt.ends_bind, Attempt.ends_get, Attempt.after_ok,
    Attempt.ends_ofExcept]
  cases is : o.shader.source index models target.options with
  | error e =>
    refine .failed fun d eq => ?_
    rw [Shader.source_eq_error is] at eq
    cases eq
  | ok text =>
    have failed {α : Type} {e : Error}
        (plain : ∀ d, (.error e : Except Error α) ≠ .error (.device d)) :
        PassCompiled index models target.options o (.error e) o :=
      .failed fun d eq => plain d (congrArg _ eq)
    simp only [Attempt.after_ok]
    split
    · exact .failed nofun
    · next pass _ =>
      simp only [Attempt.ends_bind, Attempt.ends_mk, Work.ends_lift]
      refine (writeSource_ends o.shader target index text h).mono fun r h plain => ?_
      cases r with
      | error e => exact failed plain
      | ok _ =>
        simp only [Attempt.after_ok, Attempt.ends_bind, Attempt.ends_mk, Work.ends_lift]
        refine (compileStage_ends o.shader target index text pass.vertex .vertex h).mono
          fun r h plain => ?_
        cases r with
        | error e => exact failed plain
        | ok vertex =>
          simp only [Attempt.after_ok, Attempt.ends_bind, Attempt.ends_mk, Work.ends_lift]
          refine (compileStage_ends o.shader target index text pass.fragment .fragment h).mono
            fun r h plain => ?_
          cases r with
          | error e => exact failed plain
          | ok fragment => exact .compiled is

/-- How making the pipeline of a pass ends: with one that was made from its bytecode, or with an
error and the object as it was. For a pass that is compiled only the device can be the reason
of the error. -/
inductive PipelineCreated (index : Nat) (o : ShaderObject) (h : Host) :
    Except Error Handle → ShaderObject → Host → Prop where
  | created {kind : PassKind} {pass : CompiledPass} {handle : Handle} {h' : Host}
      (is : o.shader.passKind? index = some kind) (there : o.compiled? index = some pass)
      (made : h.device.Sound → ∃ label,
        h'.device.Made handle (kind.pipeline label pass.vertex pass.fragment)) :
      PipelineCreated index o h (.ok handle)
        (o.setPass index { pass with pipeline := some handle }) h'
  | failed {e : Error} {h' : Host}
      (refused : ∀ kind pass, o.shader.passKind? index = some kind →
        o.compiled? index = some pass → ∃ d, e = .device d) :
      PipelineCreated index o h (.error e) o h'

theorem createPipeline_ends (index : Nat) (o : ShaderObject) (h : Host) :
    Attempt.Ends (createPipeline index) o h (PipelineCreated index o h) := by
  simp only [createPipeline, Attempt.ends_bind, Attempt.ends_get, Attempt.after_ok,
    Attempt.ends_ofExcept]
  cases require : o.shader.requireKind index with
  | error e =>
    refine .failed fun kind _ is => ?_
    rw [Shader.requireKind_eq_ok.2 is] at require
    cases require
  | ok kind =>
    have isKind : o.shader.passKind? index = some kind := Shader.requireKind_eq_ok.1 require
    simp only [Attempt.after_ok]
    cases is : o.compiled? index with
    | none =>
      refine .failed fun _ _ _ there => ?_
      rw [is] at there
      cases there
    | some pass =>
      simp only [Attempt.ends_bind, Attempt.ends_ofDevice]
      refine (Device.createPipeline_ends _ h).mono fun r h' ⟨_, made⟩ => ?_
      cases r with
      | error d => exact .failed fun _ _ _ _ => ⟨d, rfl⟩
      | ok handle => exact .created isKind is fun sound => ⟨_, made handle rfl sound⟩

/-- One pass is replaced, by one with the same source or with that for the models, and with no
pipeline but one that was made from its bytecode. -/
theorem Reworked.setPass {options : SourceOptions} {o : ShaderObject} {h h' : Host} {index : Nat}
    {pass : CompiledPass} (world : h.Builds h')
    (source : o.source? index = some pass.source ∨
      o.shader.source index models options = .ok pass.source)
    (recorded : h.device.Sound → o.Recorded h.device → ∀ handle, pass.pipeline = some handle →
      ∃ descriptor, h'.device.Made handle descriptor ∧
        descriptor.vertex = pass.vertex ∧ descriptor.fragment = pass.fragment) :
    Reworked models options o h (o.setPass index pass) h' where
  id := rfl
  shader := rfl
  length := o.length_setPass index pass
  source fits index' := by
    by_cases same : index' = index
    · subst same
      rcases source with is | is
      · obtain ⟨old, there, _⟩ := Option.map_eq_some_iff.1 is
        left
        rw [is, source?_setPass_self (lt_length_of_compiled? there)]
      · have lt : index' < o.passes.length := fits.lt_length_of_source is
        exact .inr ⟨pass.source, is, source?_setPass_self lt pass⟩
    · left
      rw [source?, source?, compiled?_setPass_of_ne same]
  world := world
  recorded sound held := by
    intro index' pass' handle is holds
    rcases compiled?_setPass_cases is with ⟨_, rfl⟩ | ⟨_, is⟩
    · exact recorded sound held handle holds
    · exact (held.mono sound world.device) index' pass' handle is holds

theorem compilePass_reworked (index : Nat) (o : ShaderObject) (h : Host) :
    Attempt.Ends (compilePass index models target) o h fun _ o' h' =>
      Reworked models target.options o h o' h' := by
  refine ((compilePass_ends index o h).and (compilePass_keeps models target index o h)).mono ?_
  rintro r o' h' ⟨ends, world⟩
  cases ends with
  | compiled source =>
    refine .setPass world.toBuilds (.inr source) fun _ _ handle none => ?_
    cases none
  | failed _ => exact .refl world.toBuilds

theorem createPipeline_reworked (index : Nat) (models : List ShadingModel)
    (options : SourceOptions) (o : ShaderObject) (h : Host) :
    Attempt.Ends (createPipeline index) o h fun _ o' h' =>
      Reworked models options o h o' h' := by
  refine ((createPipeline_ends index o h).and (createPipeline_keeps index o h)).mono ?_
  rintro r o' h' ⟨ends, world⟩
  cases ends with
  | @created kind pass handle _ _ there made =>
    have source : o.source? index = some pass.source := by rw [source?, there, Option.map_some]
    refine .setPass world.toBuilds (.inl source) fun sound _ handle' holds => ?_
    obtain ⟨label, made⟩ := made sound
    cases holds
    refine ⟨_, made, ?_, ?_⟩ <;> cases kind <;> rfl
  | failed _ => exact .refl world.toBuilds

/-! ## All passes -/

theorem compilePasses_ends (indices : List Nat) (o : ShaderObject) (h : Host) (fits : o.Fits) :
    Attempt.Ends (compilePasses models target indices) o h fun r o' h' =>
      Reworked models target.options o h o' h' ∧
        (r = .ok () → ∀ index ∈ indices, o'.Current models target.options index) := by
  induction indices generalizing o h with
  | nil => exact ⟨.refl ⟨.refl _, .refl _, .refl _⟩, fun _ _ mem => absurd mem List.not_mem_nil⟩
  | cons index rest ih =>
    unfold compilePasses
    refine ((compilePass_ends index o h).and (compilePass_reworked index o h)).bind
      (fun _ o₁ h₁ ⟨ends, reworked⟩ => ?_) fun e o₁ h₁ ⟨_, reworked⟩ => ⟨reworked, nofun⟩
    refine (ih o₁ h₁ (reworked.fits fits)).mono fun r o' h' ⟨reworked', all⟩ =>
      ⟨reworked.trans reworked', fun ok index' mem => ?_⟩
    rcases List.mem_cons.1 mem with rfl | mem
    · cases ends with
      | @compiled text _ _ source =>
        have lt : index' < o.passes.length := fits.lt_length_of_source source
        exact reworked'.current (reworked.fits fits) ⟨text, source, source?_setPass_self lt _⟩
    · exact all ok index' mem

theorem compile_ends (o : ShaderObject) (h : Host) (fits : o.Fits) :
    Attempt.Ends (compile models target) o h fun r o' h' =>
      Reworked models target.options o h o' h' ∧
        (r = .ok () → ∀ index < o.shader.passCount, o'.Current models target.options index) := by
  simp only [compile, Attempt.ends_bind, Attempt.ends_get, Attempt.after_ok]
  refine (compilePasses_ends _ o h fits).mono fun r o' h' ⟨reworked, all⟩ => ?_
  cases r with
  | error e => exact ⟨reworked, nofun⟩
  | ok _ =>
    refine ⟨reworked.trans (.refl (report_keeps _ h').toBuilds), fun _ index lt => ?_⟩
    exact all rfl index (List.mem_range.2 lt)

/-- Making a pipeline changes no source and takes no pipeline away. -/
theorem createPipeline_pipeline? (index : Nat) (o : ShaderObject) (h : Host) :
    Attempt.Ends (createPipeline index) o h fun r o' _ =>
      (∀ index', (o.pipeline? index').isSome → (o'.pipeline? index').isSome) ∧
        (∀ handle, r = .ok handle → (o'.pipeline? index).isSome) := by
  refine (createPipeline_ends index o h).mono fun r o' h' ends => ?_
  cases ends with
  | @created kind pass handle _ _ there _ =>
    have made := pipeline?_setPass_self (lt_length_of_compiled? there)
      { pass with pipeline := some handle }
    refine ⟨fun index' some => ?_, fun _ _ => by rw [made, Option.isSome_some]⟩
    by_cases same : index' = index
    · rw [same, made, Option.isSome_some]
    · rw [pipeline?_congr (compiled?_setPass_of_ne same _)]
      exact some
  | failed _ => exact ⟨fun _ some => some, nofun⟩

theorem createPipelinesOf_ends (indices : List Nat) (models : List ShadingModel)
    (options : SourceOptions) (o : ShaderObject) (h : Host) :
    Attempt.Ends (createPipelinesOf indices) o h fun r o' h' =>
      Reworked models options o h o' h' ∧
        (∀ index, (o.pipeline? index).isSome → (o'.pipeline? index).isSome) ∧
        (r = .ok () → ∀ index ∈ indices, (o'.pipeline? index).isSome) := by
  induction indices generalizing o h with
  | nil =>
    exact ⟨.refl ⟨.refl _, .refl _, .refl _⟩, fun _ some => some, fun _ _ mem => absurd mem List.not_mem_nil⟩
  | cons index rest ih =>
    unfold createPipelinesOf
    refine ((createPipeline_pipeline? index o h).and
      (createPipeline_reworked index models options o h)).bind ?_ ?_
    · rintro handle o₁ h₁ ⟨⟨keeps, made⟩, reworked⟩
      refine (ih o₁ h₁).mono fun r o' h' ⟨reworked', keeps', all⟩ => ?_
      refine ⟨reworked.trans reworked', fun index' some => keeps' _ (keeps _ some), ?_⟩
      intro ok index' mem
      rcases List.mem_cons.1 mem with rfl | mem
      · exact keeps' _ (made handle rfl)
      · exact all ok index' mem
    · rintro e o₁ h₁ ⟨⟨keeps, _⟩, reworked⟩
      exact ⟨reworked, keeps, nofun⟩

/-- A build that does not fail leaves every pass current and the object drawable. -/
theorem build_ends (o : ShaderObject) (h : Host) (fits : o.Fits) :
    Attempt.Ends (build models target) o h fun r o' h' =>
      Reworked models target.options o h o' h' ∧
        (r = .ok () → o'.Drawable ∧
          ∀ index < o'.shader.passCount, o'.Current models target.options index) := by
  unfold build
  refine (compile_ends o h fits).bind ?_ fun e o₁ h₁ ⟨reworked, _⟩ => ⟨reworked, nofun⟩
  rintro _ o₁ h₁ ⟨reworked, current⟩
  simp only [createPipelines, Attempt.ends_bind, Attempt.ends_get, Attempt.after_ok]
  refine (createPipelinesOf_ends _ models target.options o₁ h₁).mono
    fun r o' h' ⟨reworked', _, made⟩ => ⟨reworked.trans reworked', fun ok => ⟨?_, ?_⟩⟩
  · intro index lt
    rw [reworked'.shader] at lt
    exact made ok index (List.mem_range.2 lt)
  · intro index lt
    rw [reworked'.shader, reworked.shader] at lt
    exact reworked'.current (reworked.fits fits) (current rfl index lt)

/-! ## Lighting passes made anew -/

/-- What making some passes anew comes to. Without a failure each of them is current and has a
pipeline. When the device refuses a pipeline, one of them has none and no other lost its own;
when anything else fails, none lost its own. -/
structure Rebuilt (models : List ShadingModel) (options : SourceOptions) (indices : List Nat)
    (o : ShaderObject) (h : Host) (r : Except Error Nat) (o' : ShaderObject) (h' : Host) :
    Prop where
  reworked : Reworked models options o h o' h'
  frame : ∀ index, index ∉ indices → o'.compiled? index = o.compiled? index
  renewed : ∀ n, r = .ok n → n = indices.length ∧
    ∀ index ∈ indices, o'.Current models options index ∧ (o'.pipeline? index).isSome
  stopped : ∀ d, r = .error (.device d) → ∃ index ∈ indices, o'.pipeline? index = none ∧
    ∀ other, other ≠ index → (o.pipeline? other).isSome → (o'.pipeline? other).isSome
  kept : (∀ d, r ≠ .error (.device d)) →
    ∀ index, (o.pipeline? index).isSome → (o'.pipeline? index).isSome

/-- How a pass ends that is compiled anew and then given its pipeline: renewed; stopped by the
device, without the pipeline it had; or failed before that, as it was. -/
inductive PassRenewed (index : Nat) (models : List ShadingModel) (options : SourceOptions)
    (o : ShaderObject) : Except Error Handle → ShaderObject → Prop where
  | renewed {handle : Handle} {o' : ShaderObject} (current : o'.Current models options index)
      (made : (o'.pipeline? index).isSome) : PassRenewed index models options o (.ok handle) o'
  | stopped {d : DeviceError} {o' : ShaderObject} (lost : o'.pipeline? index = none) :
      PassRenewed index models options o (.error (.device d)) o'
  | failed {e : Error} (plain : ∀ d, e ≠ .device d) : PassRenewed index models options o (.error e) o

theorem compileThenPipeline_ends (index : Nat) (o : ShaderObject) (h : Host) (fits : o.Fits) :
    Attempt.Ends (compilePass index models target >>= fun _ => createPipeline index) o h
      fun r o' h' => Reworked models target.options o h o' h' ∧
        (∀ other, other ≠ index → o'.compiled? other = o.compiled? other) ∧
        PassRenewed index models target.options o r o' := by
  refine ((compilePass_ends index o h).and (compilePass_reworked index o h)).bind ?_ ?_
  · rintro _ o₁ h₁ ⟨ends, reworked⟩
    cases ends with
    | @compiled text vertex fragment source =>
      have lt : index < o.passes.length := fits.lt_length_of_source source
      obtain ⟨kind, isKind, _⟩ := Shader.source_eq_ok.1 source
      refine ((createPipeline_ends index _ h₁).and
        ((createPipeline_reworked index models target.options _ h₁).and
          (createPipeline_pipeline? index _ h₁))).mono ?_
      rintro r o' h' ⟨ends, reworked', _, made⟩
      have current : o'.Current models target.options index :=
        reworked'.current (fits.setPass _ _) ⟨text, source, source?_setPass_self lt _⟩
      refine ⟨reworked.trans reworked', fun other ne => ?_, ?_⟩
      · cases ends with
        | created _ _ _ => rw [compiled?_setPass_of_ne ne, compiled?_setPass_of_ne ne]
        | failed _ => rw [compiled?_setPass_of_ne ne]
      · cases ends with
        | @created _ _ handle _ _ _ _ => exact .renewed current (made handle rfl)
        | failed refused =>
          obtain ⟨d, rfl⟩ := refused kind _ isKind (compiled?_setPass_self lt _)
          exact .stopped (pipeline?_setPass_self lt _)
  · rintro e o₁ h₁ ⟨ends, reworked⟩
    cases ends with
    | failed plain => exact ⟨reworked, fun _ _ => rfl, .failed plain⟩

/-- One pass more was made anew before. -/
theorem Rebuilt.cons {options : SourceOptions} {index : Nat} {rest : List Nat}
    {o o₁ o' : ShaderObject} {h h₁ h' : Host} {r : Except Error Nat} (fits : o.Fits)
    (reworked : Reworked models options o h o₁ h₁)
    (others : ∀ other, other ≠ index → o₁.compiled? other = o.compiled? other)
    (current : o₁.Current models options index) (made : (o₁.pipeline? index).isSome)
    (rebuilt : Rebuilt models options rest o₁ h₁ r o' h') :
    Rebuilt models options (index :: rest) o h (r.map (· + 1)) o' h' := by
  have kept (index' : Nat) (some : (o.pipeline? index').isSome) :
      (o₁.pipeline? index').isSome := by
    by_cases same : index' = index
    · rw [same]; exact made
    · rw [pipeline?_congr (others index' same)]; exact some
  refine ⟨reworked.trans rebuilt.reworked, ?_, ?_, ?_, ?_⟩
  · intro index' notMem
    obtain ⟨ne, notRest⟩ := not_or.1 (mt List.mem_cons.2 notMem)
    rw [rebuilt.frame index' notRest, others index' ne]
  · intro n eq
    cases r with
    | error e => cases eq
    | ok m =>
      cases eq
      obtain ⟨length, all⟩ := rebuilt.renewed m rfl
      refine ⟨by rw [length]; rfl, fun index' mem => ?_⟩
      rcases List.mem_cons.1 mem with rfl | mem
      · exact ⟨rebuilt.reworked.current (reworked.fits fits) current,
          rebuilt.kept nofun index' made⟩
      · exact all index' mem
  · intro d eq
    cases r with
    | ok m => cases eq
    | error e =>
      cases eq
      obtain ⟨lost, mem, none, rest⟩ := rebuilt.stopped d rfl
      exact ⟨lost, List.mem_cons_of_mem index mem, none,
        fun other ne some => rest other ne (kept other some)⟩
  · intro plain index' some
    refine rebuilt.kept (fun d eq => plain d ?_) index' (kept index' some)
    rw [eq]
    rfl

theorem rebuildPasses_ends (indices : List Nat) (o : ShaderObject) (h : Host) (fits : o.Fits) :
    Attempt.Ends (rebuildPasses models target indices) o h
      (Rebuilt models target.options indices o h) := by
  induction indices generalizing o h with
  | nil =>
    exact ⟨.refl ⟨.refl _, .refl _, .refl _⟩, fun _ _ => rfl, fun n eq => (by cases eq; exact ⟨rfl, nofun⟩),
      nofun, fun _ _ some => some⟩
  | cons index rest ih =>
    rw [rebuildPasses, ← bind_assoc]
    refine (compileThenPipeline_ends index o h fits).bind ?_ ?_
    · rintro handle o₁ h₁ ⟨reworked, others, ends⟩
      cases ends with
      | renewed current made =>
        refine (ih o₁ h₁ (reworked.fits fits)).bind ?_ ?_
        · exact fun _ _ _ rebuilt => rebuilt.cons fits reworked others current made
        · exact fun _ _ _ rebuilt => rebuilt.cons fits reworked others current made
    · rintro e o₁ h₁ ⟨reworked, others, ends⟩
      refine ⟨reworked, fun index' notMem => others index' fun eq => notMem ?_, nofun, ?_, ?_⟩
      · rw [eq]; exact List.mem_cons_self
      · rintro d ⟨⟩
        cases ends with
        | stopped lost =>
          refine ⟨index, List.mem_cons_self, lost, fun other ne some => ?_⟩
          rw [pipeline?_congr (others other ne)]
          exact some
        | failed plain => exact absurd rfl (plain d)
      · intro plain index' some
        cases ends with
        | @stopped d _ _ => exact absurd rfl (plain d)
        | failed _ => exact some

theorem rebuildLighting_ends (o : ShaderObject) (h : Host) (fits : o.Fits) :
    Attempt.Ends (rebuildLighting models target) o h
      (Rebuilt models target.options o.shader.lightingPasses o h) := by
  simp only [rebuildLighting, Attempt.ends_bind, Attempt.ends_get, Attempt.after_ok]
  exact rebuildPasses_ends o.shader.lightingPasses o h fits

end ShaderObject

end SurfaceShading
