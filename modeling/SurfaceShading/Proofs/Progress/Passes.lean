/-
  Compilations that cannot fail. An entry point that stands in the first line of every source
  is found by the compiler; so a device that refuses nothing builds every shader whose entry
  points do, and makes its lighting passes anew (`ShaderObject.build_ok`). A device that
  compiles everything but refuses pipelines stops as soon as there is a lighting pass to make
  anew (`ShaderObject.rebuildLighting_refused`).
-/
import SurfaceShading.Proofs.Library.Load

namespace SurfaceShading

/-! ## Entry points -/

namespace Text

theorem isSome_indexOf?_append_left {needle : List Char} (text rest : List Char)
    (occurs : (indexOf? needle text).isSome) : (indexOf? needle (text ++ rest)).isSome := by
  induction text with
  | nil =>
    unfold indexOf? at occurs
    split at occurs
    · next empty =>
      rw [List.isEmpty_iff] at empty
      subst empty
      cases rest <;> rfl
    · cases occurs
  | cons c cs ih =>
    unfold indexOf? at occurs
    rw [List.cons_append, indexOf?]
    split at occurs
    · next starts =>
      have longer : needle.isPrefixOf (c :: (cs ++ rest)) = true := by
        rw [List.isPrefixOf_iff_prefix] at starts ⊢
        exact starts.trans (List.prefix_append (c :: cs) rest)
      rw [if_pos longer]
      rfl
    · rw [Option.isSome_map] at occurs
      split
      · rfl
      · rw [Option.isSome_map]
        exact ih occurs

theorem isSome_indexOf?_append_right {needle : List Char} (before : List Char)
    {text : List Char} (occurs : (indexOf? needle text).isSome) :
    (indexOf? needle (before ++ text)).isSome := by
  induction before with
  | nil => exact occurs
  | cons c cs ih =>
    rw [List.cons_append, indexOf?]
    split
    · rfl
    · rw [Option.isSome_map]
      exact ih

theorem occursIn_append_left {needle text : String} (rest : String)
    (occurs : occursIn needle text) : occursIn needle (text ++ rest) := by
  unfold occursIn
  rw [String.toList_append]
  exact isSome_indexOf?_append_left _ _ occurs

theorem occursIn_append_right {needle text : String} (before : String)
    (occurs : occursIn needle text) : occursIn needle (before ++ text) := by
  unfold occursIn
  rw [String.toList_append]
  exact isSome_indexOf?_append_right _ occurs

end Text

/-- Every source says in its first line that it is of a pass. -/
theorem Source.occursIn_header {needle : String} (occurs : Text.occursIn needle " pass ")
    (shader : String) (index : Nat) (pass : String) (kind : PassKind) :
    Text.occursIn needle (header shader index pass kind) := by
  unfold header
  -- The word is followed by the index, the name of the pass, its kind and the second line.
  iterate 7 apply Text.occursIn_append_left
  exact Text.occursIn_append_right _ occurs

theorem Source.occursIn_generate {needle : String} (occurs : Text.occursIn needle " pass ")
    (definition : Definition) (index : Nat) (kind : PassKind) (parameters : List Parameter)
    (models : List ShadingModel) (options : SourceOptions) :
    Text.occursIn needle (generate definition index kind parameters models options) := by
  unfold generate
  iterate 10 apply Text.occursIn_append_left
  exact occursIn_header occurs ..

/-- Every pass of a shader has a source in which its entry points occur. -/
def Shader.Compilable (s : Shader) (options : SourceOptions) : Prop :=
  ∀ index < s.passCount, ∀ models, ∃ text pass, s.source index models options = .ok text ∧
    s.definition.passes[index]? = some pass ∧ Text.occursIn pass.vertex text ∧
    Text.occursIn pass.fragment text

/-- A shader is compilable if all its passes have roles and entry points that stand in the
first line of any source. -/
theorem Shader.compilable_of_entries {s : Shader}
    (roles : ∀ index < s.passCount, ∃ kind, s.passKind? index = some kind)
    (entries : ∀ pass ∈ s.definition.passes, Text.occursIn pass.vertex " pass " ∧
      Text.occursIn pass.fragment " pass ") (options : SourceOptions) : s.Compilable options := by
  intro index lt models
  obtain ⟨kind, is⟩ := roles index lt
  have there : s.definition.passes[index]? = some s.definition.passes[index] :=
    List.getElem?_eq_getElem lt
  obtain ⟨vertex, fragment⟩ := entries _ (List.mem_of_getElem? there)
  exact ⟨_, _, Shader.source_eq_ok.2 ⟨kind, is, rfl⟩, there,
    Source.occursIn_generate vertex .., Source.occursIn_generate fragment ..⟩

/-! ## Devices -/

namespace Device

/-- The device refuses no compilation. -/
structure Compiles (d : Device) : Prop where
  policy : ∀ n source entry stage, d.policy n (.compile source entry stage) = none
  rejected : d.rejected = none

/-- The device refuses no pipeline. -/
def MakesPipelines (d : Device) : Prop := ∀ n descriptor, d.policy n (.pipeline descriptor) = none

/-- The device refuses every pipeline. -/
def RefusesPipelines (d : Device) : Prop :=
  ∀ n descriptor, ∃ e, d.policy n (.pipeline descriptor) = some e

variable {d d' : Device} {h : Host}

theorem Compiles.advance (compiles : d.Compiles) (advances : d.Advances d') : d'.Compiles where
  policy := by rw [advances.policy]; exact compiles.policy
  rejected := by rw [advances.rejected]; exact compiles.rejected

theorem MakesPipelines.advance (makes : d.MakesPipelines) (advances : d.Advances d') :
    d'.MakesPipelines := by
  unfold MakesPipelines
  rw [advances.policy]
  exact makes

theorem RefusesPipelines.advance (refuses : d.RefusesPipelines) (advances : d.Advances d') :
    d'.RefusesPipelines := by
  unfold RefusesPipelines
  rw [advances.policy]
  exact refuses

theorem compile_ok (compiles : h.device.Compiles) {source entry : String}
    (occurs : Text.occursIn entry source) (stage : Stage) :
    HostM.Ends (compile source entry stage) h fun r _ => ∃ b, r = .ok b := by
  have fine : diagnose { h.device with requests := h.device.requests + 1 } source entry = none := by
    simp only [diagnose, compiles.rejected, if_pos occurs]
  simp only [compile, ask, HostM.ends_bind, HostM.ends_get, HostM.ends_modify, HostM.ends_pure,
    compiles.policy, report, fine, change]
  exact ⟨_, rfl⟩

theorem createPipeline_ok (makes : h.device.MakesPipelines) (descriptor : PipelineDescriptor) :
    HostM.Ends (createPipeline descriptor) h fun r _ => ∃ handle, r = .ok handle := by
  simp only [createPipeline, ask, HostM.ends_bind, HostM.ends_get, HostM.ends_modify,
    HostM.ends_pure, makes _ _]
  exact ⟨_, rfl⟩

theorem createPipeline_refused (refuses : h.device.RefusesPipelines)
    (descriptor : PipelineDescriptor) :
    HostM.Ends (createPipeline descriptor) h fun r _ => ∃ e, r = .error e := by
  obtain ⟨e, refused⟩ := refuses h.device.requests descriptor
  simp only [createPipeline, ask, HostM.ends_bind, HostM.ends_get, HostM.ends_modify,
    HostM.ends_pure, refused]
  exact ⟨e, rfl⟩

end Device

/-! ## Shaders -/

namespace ShaderObject

variable {models : List ShadingModel} {target : CompileTarget} {o : ShaderObject} {h : Host}

theorem compileStage_ok (compiles : h.device.Compiles) (shader : Shader) (target : CompileTarget)
    (index : Nat) {source entry : String} (occurs : Text.occursIn entry source) (stage : Stage) :
    HostM.Ends (compileStage shader target index source entry stage) h fun r _ =>
      ∃ b, r = .ok b := by
  unfold compileStage
  refine (HostM.ends_bind _ _).2 ((Device.compile_ok compiles occurs stage).mono ?_)
  rintro _ h' ⟨b, rfl⟩
  exact ⟨b, rfl⟩

theorem writeSource_of_noCache (noCache : target.cacheDirectory = none) (shader : Shader)
    (index : Nat) (source : String) :
    writeSource shader target index source = pure (.ok ()) := by
  unfold writeSource
  rw [noCache]

theorem compilePass_ok (compiles : h.device.Compiles) (noCache : target.cacheDirectory = none)
    (compilable : o.shader.Compilable target.options) {index : Nat}
    (lt : index < o.shader.passCount) :
    Attempt.Succeeds (compilePass index models target) o h := by
  obtain ⟨text, pass, is, there, vertex, fragment⟩ := compilable index lt models
  simp only [Attempt.Succeeds, compilePass, Attempt.ends_bind, Attempt.ends_get,
    Attempt.after_ok, Attempt.ends_ofExcept, is, there, Attempt.ends_mk, Work.ends_lift,
    writeSource_of_noCache noCache, HostM.ends_pure]
  refine ((compileStage_ok compiles o.shader target index vertex .vertex).and
    (compileStage_keeps o.shader target index text pass.vertex .vertex h)).mono ?_
  rintro _ h₁ ⟨⟨_, rfl⟩, builds⟩
  simp only [Attempt.after_ok, Attempt.ends_bind, Attempt.ends_mk, Work.ends_lift]
  refine (compileStage_ok (compiles.advance builds.device) o.shader target index fragment
    .fragment).mono ?_
  rintro _ h₂ ⟨_, rfl⟩
  exact ⟨(), rfl⟩

theorem compilePasses_ok (noCache : target.cacheDirectory = none) (indices : List Nat)
    (o : ShaderObject) (h : Host) (compiles : h.device.Compiles)
    (compilable : o.shader.Compilable target.options)
    (lt : ∀ index ∈ indices, index < o.shader.passCount) :
    Attempt.Succeeds (compilePasses models target indices) o h := by
  induction indices generalizing o h with
  | nil => exact ⟨(), rfl⟩
  | cons index rest ih =>
    have first : Attempt.Succeeds (compilePass index models target) o h :=
      compilePass_ok compiles noCache compilable (lt index List.mem_cons_self)
    unfold compilePasses
    refine first.bind (compilePass_reworked index o h) fun _ o₁ h₁ reworked => ?_
    refine ih o₁ h₁ (compiles.advance reworked.world.device) ?_ ?_
    · rw [reworked.shader]
      exact compilable
    · rw [reworked.shader]
      exact fun index mem => lt index (List.mem_cons_of_mem _ mem)

theorem createPipeline_ok (makes : h.device.MakesPipelines) {index : Nat} {kind : PassKind}
    {pass : CompiledPass} (is : o.shader.passKind? index = some kind)
    (there : o.compiled? index = some pass) :
    Attempt.Succeeds (createPipeline index) o h := by
  simp only [Attempt.Succeeds, createPipeline, Attempt.ends_bind, Attempt.ends_get,
    Attempt.after_ok, Attempt.ends_ofExcept, Shader.requireKind_eq_ok.2 is, there,
    Attempt.ends_ofDevice]
  refine (Device.createPipeline_ok makes _).mono ?_
  rintro _ h' ⟨handle, rfl⟩
  exact ⟨handle, rfl⟩

theorem createPipelinesOf_ok (indices : List Nat) (models : List ShadingModel)
    (options : SourceOptions) (o : ShaderObject) (h : Host) (makes : h.device.MakesPipelines)
    (fits : o.Fits) (ready : ∀ index ∈ indices, o.Current models options index) :
    Attempt.Succeeds (createPipelinesOf indices) o h := by
  induction indices generalizing o h with
  | nil => exact ⟨(), rfl⟩
  | cons index rest ih =>
    obtain ⟨text, is, holds⟩ := ready index List.mem_cons_self
    obtain ⟨kind, is, _⟩ := Shader.source_eq_ok.1 is
    obtain ⟨pass, there, _⟩ := Option.map_eq_some_iff.1 holds
    have reworks := createPipeline_reworked index models options o h
    unfold createPipelinesOf
    refine (createPipeline_ok makes is there).bind reworks fun _ o₁ h₁ reworked => ?_
    exact ih o₁ h₁ (makes.advance reworked.world.device) (reworked.fits fits) fun other mem =>
      reworked.current fits (ready other (List.mem_cons_of_mem index mem))

theorem build_ok (compiles : h.device.Compiles) (makes : h.device.MakesPipelines)
    (noCache : target.cacheDirectory = none) (fits : o.Fits)
    (compilable : o.shader.Compilable target.options) :
    Attempt.Succeeds (build models target) o h := by
  have compiled : Attempt.Succeeds (compile models target) o h := by
    have passes : Attempt.Succeeds (compilePasses models target (List.range o.shader.passCount))
        o h := compilePasses_ok noCache _ o h compiles compilable fun _ mem => List.mem_range.1 mem
    simp only [Attempt.Succeeds, compile, Attempt.ends_bind, Attempt.ends_get, Attempt.after_ok]
    refine Attempt.Ends.mono passes ?_
    rintro _ o₁ h₁ ⟨_, rfl⟩
    exact ⟨(), rfl⟩
  unfold build
  refine compiled.bind (compile_ends o h fits) ?_
  rintro _ o₁ h₁ ⟨reworked, current⟩
  refine createPipelinesOf_ok _ models target.options o₁ h₁
    (makes.advance reworked.world.device) (reworked.fits fits) fun index mem => ?_
  rw [reworked.shader] at mem
  exact current rfl index (List.mem_range.1 mem)

/-- A pass that is compiled can get a pipeline next: only the device can be against it. -/
theorem compilePass_readies (compiles : h.device.Compiles) (noCache : target.cacheDirectory = none)
    (fits : o.Fits) (compilable : o.shader.Compilable target.options) {index : Nat}
    (lt : index < o.shader.passCount) :
    Attempt.Ends (compilePass index models target) o h fun r o' h' => r = .ok () ∧
      h.Builds h' ∧ ∃ kind pass, o'.shader.passKind? index = some kind ∧
        o'.compiled? index = some pass := by
  have compiled : Attempt.Succeeds (compilePass index models target) o h :=
    compilePass_ok compiles noCache compilable lt
  refine (compiled.ends ((compilePass_ends index o h).and
    (compilePass_keeps models target index o h))).mono ?_
  rintro _ o' h' ⟨_, rfl, ends, spares⟩
  cases ends with
  | compiled source =>
    obtain ⟨kind, is, _⟩ := Shader.source_eq_ok.1 source
    have inside : index < o.passes.length := fits.lt_length_of_source source
    exact ⟨rfl, spares.toBuilds, kind, _, is, compiled?_setPass_self inside _⟩

theorem rebuildPasses_ok (noCache : target.cacheDirectory = none) (indices : List Nat)
    (o : ShaderObject) (h : Host) (compiles : h.device.Compiles)
    (makes : h.device.MakesPipelines) (fits : o.Fits)
    (compilable : o.shader.Compilable target.options)
    (lt : ∀ index ∈ indices, index < o.shader.passCount) :
    Attempt.Succeeds (rebuildPasses models target indices) o h := by
  induction indices generalizing o h with
  | nil => exact ⟨0, rfl⟩
  | cons index rest ih =>
    have lt₁ : index < o.shader.passCount := lt index List.mem_cons_self
    have first : Attempt.Succeeds
        (compilePass index models target >>= fun _ => createPipeline index) o h := by
      refine (compilePass_ok compiles noCache compilable lt₁).bind
        (compilePass_readies compiles noCache fits compilable lt₁) ?_
      rintro _ o₁ h₁ ⟨_, builds, kind, pass, is, there⟩
      exact createPipeline_ok (makes.advance builds.device) is there
    rw [rebuildPasses, ← bind_assoc]
    refine first.bind (compileThenPipeline_ends index o h fits) ?_
    rintro handle o₁ h₁ ⟨reworked, _⟩
    have later : Attempt.Succeeds (rebuildPasses models target rest) o₁ h₁ := by
      refine ih o₁ h₁ (compiles.advance reworked.world.device)
        (makes.advance reworked.world.device) (reworked.fits fits) ?_ ?_
      · rw [reworked.shader]
        exact compilable
      · rw [reworked.shader]
        exact fun other mem => lt other (List.mem_cons_of_mem index mem)
    exact later.bind later fun n _ _ _ => ⟨n + 1, rfl⟩

theorem rebuildLighting_ok (compiles : h.device.Compiles) (makes : h.device.MakesPipelines)
    (noCache : target.cacheDirectory = none) (fits : o.Fits)
    (compilable : o.shader.Compilable target.options) :
    Attempt.Succeeds (rebuildLighting models target) o h := by
  have passes : Attempt.Succeeds (rebuildPasses models target o.shader.lightingPasses) o h :=
    rebuildPasses_ok noCache o.shader.lightingPasses o h compiles makes fits compilable
      fun _ => Shader.lt_passCount_of_mem_lightingPasses
  simp only [Attempt.Succeeds, rebuildLighting, Attempt.ends_bind, Attempt.ends_get,
    Attempt.after_ok]
  exact passes

theorem rebuildLighting_nothing (dark : o.shader.lightingPasses = []) :
    Attempt.Ends (rebuildLighting models target) o h fun r _ _ => r = .ok 0 := by
  simp only [rebuildLighting, Attempt.ends_bind, Attempt.ends_get, Attempt.after_ok, dark,
    rebuildPasses, Attempt.ends_pure]

/-- The first lighting pass is compiled anew and then gets no pipeline. -/
theorem rebuildLighting_refused (compiles : h.device.Compiles)
    (refuses : h.device.RefusesPipelines) (noCache : target.cacheDirectory = none)
    (fits : o.Fits) (compilable : o.shader.Compilable target.options)
    (lights : o.shader.lightingPasses ≠ []) :
    Attempt.Ends (rebuildLighting models target) o h Attempt.Refused := by
  obtain ⟨index, rest, eq⟩ := List.exists_cons_of_ne_nil lights
  have lt : index < o.shader.passCount :=
    Shader.lt_passCount_of_mem_lightingPasses (eq ▸ List.mem_cons_self)
  simp only [rebuildLighting, Attempt.ends_bind, Attempt.ends_get, Attempt.after_ok, eq,
    rebuildPasses]
  refine (compilePass_readies compiles noCache fits compilable lt).mono ?_
  rintro _ o₁ h₁ ⟨rfl, builds, kind, pass, is, there⟩
  simp only [Attempt.after_ok, Attempt.ends_bind, createPipeline, Attempt.ends_get,
    Attempt.ends_ofExcept, Shader.requireKind_eq_ok.2 is, there, Attempt.ends_ofDevice]
  refine (Device.createPipeline_refused (refuses.advance builds.device) _).mono ?_
  rintro _ _ ⟨e, rfl⟩
  exact ⟨e, rfl⟩

end ShaderObject

end SurfaceShading
