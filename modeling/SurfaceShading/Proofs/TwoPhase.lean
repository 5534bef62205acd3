/-
  Loading in two phases. Registering shaders and then compiling what is pending builds a shader
  of the list unless it was stranded before: known from an earlier registration, not built, and
  no longer pending, because the build that took it off the pending list failed. A stranded
  shader is found in the library when it is registered again and is not put back on the pending
  list, so both requests answer without an error and leave it unbuilt.
-/
import SurfaceShading.Proofs.Session

namespace SurfaceShading

namespace Library

/-- A shader counts as built and every pass of it is compiled. -/
def Compiled (l : Library) (name : String) : Prop :=
  ∃ o, l.built? name = some o ∧ ∀ index < o.shader.passCount, (o.compiled? index).isSome

/-- A shader is known and not built, and does not wait for its build. -/
def Stranded (l : Library) (name : String) : Prop :=
  ∃ o, l.shader? name = some o ∧ l.built? name = none ∧ name ∉ l.pending

variable {l l₁ l' : Library} {h h₁ h' : Host} {name : String}

theorem stranded_iff : l.Stranded name ↔
    ∃ e, l.shaders.get? name = some e ∧ e.built = false ∧ name ∉ l.pending := by
  unfold Stranded shader? built?
  cases l.shaders.get? name with
  | none => simp
  | some e => cases built : e.built <;> simp [built]

theorem Sound.compiled_iff (sound : l.Sound h.device) {e : ShaderEntry}
    (there : l.shaders.get? name = some e) : l.Compiled name ↔ e.built = true := by
  have found : l.built? name = if e.built then some e.object else none := by
    unfold Library.built?
    rw [there, Option.bind_some]
  constructor
  · rintro ⟨o, eq, _⟩
    rw [found] at eq
    cases built : e.built with
    | true => rfl
    | false => rw [built] at eq; cases eq
  · intro built
    rw [if_pos built] at found
    have entry := sound.entry there
    exact ⟨e.object, found, (ShaderObject.isCompiled_iff entry.fits).1 (entry.compiled built)⟩

/-- A registration strands no shader and saves none. -/
theorem Gathered.pending_or_built_iff (gathered : Gathered l h l₁ h₁) {e₁ : ShaderEntry}
    (there₁ : l₁.shaders.get? name = some e₁) :
    (name ∈ l₁.pending ∨ e₁.built = true) ↔ ¬ l.Stranded name := by
  rw [stranded_iff]
  rcases gathered.added there₁ with there | ⟨unknown, _, queued⟩
  · constructor
    · rintro held ⟨e, there', unbuilt, off⟩
      cases there.symm.trans there'
      rcases held with queued | built
      · rcases gathered.fresh name queued with old | unknown
        · exact off old
        · cases unknown.symm.trans there
      · rw [built] at unbuilt
        cases unbuilt
    · intro kept
      by_cases queued : name ∈ l.pending
      · exact .inl (gathered.queued name queued)
      · refine .inr (Decidable.byContradiction fun unbuilt => ?_)
        exact kept ⟨e₁, there, Bool.eq_false_iff.2 unbuilt, queued⟩
  · refine iff_of_true (.inl queued) ?_
    rintro ⟨e, there, _⟩
    cases unknown.symm.trans there

/-- What a registration found or added is compiled next, unless it was stranded. -/
theorem Gathered.compiled_iff (gathered : Gathered l h l₁ h₁) (sound : l.Sound h.device)
    (compiled : PendingCompiled l₁ h₁ (.ok ()) l' h') (knows : l₁.Knows name) :
    l'.Compiled name ↔ ¬ l.Stranded name := by
  obtain ⟨e₁, there₁⟩ := knows
  obtain ⟨e', there', _⟩ := compiled.moves.entry there₁
  have sound' := compiled.moves.sound (gathered.moves.sound sound)
  rw [sound'.compiled_iff there', compiled.built rfl there₁ there',
    gathered.pending_or_built_iff there₁]

end Library

namespace Session

variable {s : Session}

theorem register_then_compile (sound : s.Sound) (names : List String)
    (registered : (s.perform (.registerShaders names)).1 = .ok ())
    (compiled : ((s.step (.registerShaders names)).perform .compilePending).1 = .ok ())
    {name : String} (mem : name ∈ names) :
    ((s.step (.registerShaders names)).step .compilePending).library.Compiled name ↔
      ¬ s.library.Stranded name := by
  have gathers := (s.ends_perform (.registerShaders names)).1 (.done_of_ok
    (P := fun l₁ h₁ => Library.Gathered s.library s.host l₁ h₁ ∧ ∀ name ∈ names, l₁.Knows name)
    ((Library.registerShaders_ends names s.library s.host sound.idle).mono
      fun _ _ _ ⟨gathered, _, all⟩ ⟨n, ok⟩ => ⟨gathered, all n ok⟩))
  obtain ⟨gathered, all⟩ := gathers registered
  have sound₁ := step_sound sound (.registerShaders names)
  have compiles := ((s.step (.registerShaders names)).ends_perform .compilePending).1
    (Library.compilePending_ends _ _ sound₁.library sound₁.idle)
  rw [compiled] at compiles
  exact gathered.compiled_iff sound.library compiles (all name mem)

theorem loadAll_compiles (sound : s.Sound) (loaded : (s.perform .loadAll).1 = .ok ())
    {name : String} (mem : name ∈ s.library.sources.names s.host.disk) :
    (s.step .loadAll).library.Compiled name ↔ ¬ s.library.Stranded name := by
  have loads := (s.ends_perform .loadAll).1
    (Library.loadAll_ends s.library s.host sound.library sound.idle)
  obtain ⟨l₁, h₁, gathered, all, compiled⟩ := loads.done loaded
  rw [loaded] at compiled
  exact gathered.compiled_iff sound.library compiled (all name mem)

/-- **When two phases are complete.** In every session: when a registration and the compilation
of what is pending answer without an error, those shaders of the list are compiled that were
not stranded before, and the same holds of all known shaders when all are loaded without an
error. -/
theorem two_phases_compile_iff (config : Config) (texts : OrderedMap String String)
    (loader : Loader) (disk : Disk) (ops : List Operation) (names : List String) :
    let s := (start config texts loader disk).run ops
    ((s.perform (.registerShaders names)).1 = .ok () →
      ((s.step (.registerShaders names)).perform .compilePending).1 = .ok () →
      ∀ name ∈ names,
        (((s.step (.registerShaders names)).step .compilePending).library.Compiled name ↔
          ¬ s.library.Stranded name)) ∧
    ((s.perform .loadAll).1 = .ok () → ∀ name ∈ s.library.sources.names s.host.disk,
      ((s.step .loadAll).library.Compiled name ↔ ¬ s.library.Stranded name)) := by
  have sound := run_sound (start_sound config texts loader disk) ops
  exact ⟨fun registered compiled _ mem => register_then_compile sound names registered compiled mem,
    fun loaded _ mem => loadAll_compiles sound loaded mem⟩

/-- A session in which the device refuses the first build of a shader and then relents. -/
def stranding : Session :=
  let text := "Shader \"Stone\" \x7b Pass \x7b HLSLPROGRAM\n#pragma vertex pass\n" ++
    "#pragma fragment pass\nENDHLSL \x7d \x7d"
  (start .standard (OrderedMap.empty.insert "Stone" text) (.stub [] []) .empty).run
    [.world .empty (.stub [] []) none fun _ _ => some .deviceLost,
      .registerShaders ["Stone"], .compilePending,
      .world .empty (.stub [] []) none Device.acceptAll]

/-- A shader whose first build the device refused stays unbuilt through both phases, and
neither answers with an error. -/
theorem stranded_not_compiled :
    (stranding.perform (.registerShaders ["Stone"])).1 = .ok () ∧
    ((stranding.step (.registerShaders ["Stone"])).perform .compilePending).1 = .ok () ∧
    ¬ ((stranding.step (.registerShaders ["Stone"])).step .compilePending).library.Compiled
      "Stone" := by
  have unbuilt : ((stranding.step (.registerShaders ["Stone"])).step
      .compilePending).library.built? "Stone" = none := by decide +kernel
  refine ⟨ok_of_isOk (by decide +kernel), ok_of_isOk (by decide +kernel), ?_⟩
  rintro ⟨o, built, _⟩
  rw [unbuilt] at built
  cases built

end Session

end SurfaceShading
