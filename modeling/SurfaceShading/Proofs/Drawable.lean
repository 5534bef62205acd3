/-
  Drawable shaders. Every pass of a shader that was built is compiled at all times, but it has
  a pipeline only as long as the device refused none to a regeneration: a lighting pass that is
  made anew loses its pipeline when it is compiled, before the next one is made. So every shader
  that was built can be drawn throughout a session iff no operation of it comes to a
  regeneration that the device stops (`Session.drawable_iff_unstopped`). A failure to compile
  takes no pipeline away.
-/
import SurfaceShading.Proofs.LoadOrder
import SurfaceShading.Proofs.TwoPhase

namespace SurfaceShading

/-- Every pass of every shader that was built is compiled and has a pipeline. -/
def Library.AllDrawable (l : Library) : Prop :=
  ∀ name o, l.built? name = some o → ∀ index < o.shader.passCount,
    (o.compiled? index).isSome ∧ (o.pipeline? index).isSome

/-- Every pass of every shader that was built is compiled. -/
def Library.AllCompiled (l : Library) : Prop :=
  ∀ name o, l.built? name = some o → ∀ index < o.shader.passCount, (o.compiled? index).isSome

namespace Library

variable {l : Library} {d : Device}

theorem allDrawable_iff : l.AllDrawable ↔ l.Drawable := by
  constructor
  · intro all name e there built index lt
    exact (all name e.object (built?_eq_some.2 ⟨e, there, built, rfl⟩) index lt).2
  · intro drawable name o found index lt
    obtain ⟨e, there, built, rfl⟩ := built?_eq_some.1 found
    have made := drawable name e there built index lt
    exact ⟨ShaderObject.isSome_compiled?_of_pipeline? made, made⟩

theorem Sound.allCompiled (sound : l.Sound d) : l.AllCompiled := by
  intro name o found
  obtain ⟨e, there, built, rfl⟩ := built?_eq_some.1 found
  have entry := sound.entry there
  exact (ShaderObject.isCompiled_iff entry.fits).1 (entry.compiled built)

end Library

namespace Session

/-- Some operation of a run comes to a regeneration that the device stops. -/
def StopsIn : Session → List Operation → Prop
  | _, [] => False
  | s, op :: rest => op.Stops s.library s.host ∨ (s.step op).StopsIn rest

theorem drawable_throughout_iff {s : Session} (sound : s.Sound) (drawable : s.library.Drawable)
    (ops : List Operation) :
    (∀ done rest, ops = done ++ rest → (s.run done).library.Drawable) ↔ ¬ s.StopsIn ops := by
  induction ops generalizing s with
  | nil =>
    refine iff_of_true (fun done rest eq => ?_) id
    rw [(List.append_eq_nil_iff.1 eq.symm).1]
    exact drawable
  | cons op rest ih =>
    have carried := step_carried sound op
    have sound₁ := step_sound sound op
    rw [StopsIn, not_or]
    constructor
    · intro all
      have drawn : (s.step op).library.Drawable := all [op] rest rfl
      refine ⟨(carried.drawable drawable).1 drawn, (ih sound₁ drawn).1 fun done rest' eq => ?_⟩
      exact all (op :: done) rest' (by rw [eq]; rfl)
    · rintro ⟨unstopped, later⟩ done rest' eq
      have drawn := (carried.drawable drawable).2 unstopped
      cases done with
      | nil => exact drawable
      | cons _ done =>
        obtain ⟨rfl, tail⟩ := List.cons.inj eq
        exact (ih sound₁ drawn).2 later done rest' tail

/-- **When shaders stay drawable.** In every session every pass of every shader that was built
is compiled, after each operation. All of them have pipelines after each operation iff no
operation comes to a regeneration of lighting that the device stops by refusing a pipeline. -/
theorem drawable_iff_unstopped (config : Config) (texts : OrderedMap String String)
    (loader : Loader) (disk : Disk) (ops : List Operation) :
    let s := start config texts loader disk
    (∀ done rest, ops = done ++ rest → (s.run done).library.AllCompiled) ∧
    ((∀ done rest, ops = done ++ rest → (s.run done).library.AllDrawable) ↔ ¬ s.StopsIn ops) := by
  have sound := start_sound config texts loader disk
  refine ⟨fun done _ _ => (run_sound sound done).library.allCompiled, ?_⟩
  simp only [Library.allDrawable_iff]
  exact drawable_throughout_iff sound (fun _ _ is => nomatch is) ops

/-! ## A pipeline lost -/

/-- A load that is answered without an error leaves all shaders drawable. -/
theorem load_drawable {s : Session} (sound : s.Sound) (name : String)
    (ok : (s.perform (.loadShader name)).1 = .ok ()) (drawable : s.library.Drawable) :
    (s.step (.loadShader name)).library.Drawable := by
  refine (s.ends_perform (.loadShader name)).1 (.done_of_ok (P := fun l _ => l.Drawable)
    ((Library.loadShader_ends name s.library s.host sound.library sound.idle).mono ?_)) ok
  rintro r l' h' (⟨_, _, _, rfl, _⟩ | ⟨_, new⟩) ⟨o, eq⟩
  · exact drawable
  · exact (new.drawable drawable).2 (new.done o eq).2.2.1

theorem regenerate_moves {s : Session} (sound : s.Sound) :
    Library.Moves s.library s.host (s.step .regenerate).library (s.step .regenerate).host := by
  refine (s.ends_perform .regenerate).1 (.done (P := Library.Moves s.library s.host)
    ((Library.regenerateExcept_ends [] s.library s.host sound.library sound.idle ?_).mono
      fun _ _ _ regenerated => regenerated.moves))
  exact fun _ mem => absurd mem List.not_mem_nil

/-- A regeneration works on the shaders that are there. -/
theorem regenerate_entry {s : Session} (sound : s.Sound) {name : String} {e' : ShaderEntry}
    (there' : (s.step .regenerate).library.shaders.get? name = some e') :
    ∃ e, s.library.shaders.get? name = some e ∧ e'.object.shader = e.object.shader := by
  refine (s.ends_perform .regenerate).1 (.done (P := fun l' _ =>
    l'.shaders.get? name = some e' → _) ((Library.regenerateExcept_ends [] s.library s.host
      sound.library sound.idle fun _ mem => absurd mem List.not_mem_nil).mono ?_)) there'
  intro _ l' _ regenerated there'
  cases there : s.library.shaders.get? name with
  | none => rw [regenerated.known there] at there'; cases there'
  | some e =>
    obtain ⟨e'', there'', _, same, _⟩ := regenerated.moves.entry there
    cases there'.symm.trans there''
    exact ⟨e, rfl, same⟩

/-- A policy that refuses all pipelines and nothing else. -/
def refusePipelines : Nat → DeviceRequest → Option DeviceError
  | _, .pipeline _ => some .outOfMemory
  | _, _ => none

/-- A device that suddenly refuses all pipelines. -/
def refusal : Operation := .world .empty (.stub [] []) none refusePipelines

theorem refusal_unpiped {s : Session} (sound : s.Sound) (compilable : s.library.Compilable) :
    (s.step refusal).library.Unpiped (s.step refusal).host where
  sound := (step_sound sound refusal).library
  compilable := compilable
  compiles := ⟨fun _ _ _ _ => rfl, rfl⟩
  refuses := fun _ _ => ⟨_, rfl⟩

/-- A lighting shader of one pass is loaded, the device then refuses all pipelines, and
lighting is made anew: the shader still counts as built, and its pass has no pipeline. -/
theorem load_refuse_regenerate {base : Library} {disk : Disk} {s : Session} (sound : s.Sound)
    (started : Library.Loaded base disk [] s.library s.host) (settled : s.library.pending = [])
    (drawable : s.library.Drawable) (willing : s.library.Willing s.host) {name : String}
    (offers : s.library.Offers name)
    (single : ∀ definition shader, base.Declared disk name definition →
      Shader.ofDefinition definition (name == base.config.sharedShader) base.config.bufferLimit =
        .ok shader → shader.passCount = 1 ∧ shader.lightingPasses = [0]) :
    ∃ o, (((s.step (.loadShader name)).step refusal).step .regenerate).library.built? name = some o ∧
      o.shader.passCount = 1 ∧ (o.compiled? 0).isSome ∧ o.pipeline? 0 = none := by
  have ok := loads_ok [.load name] sound willing fun other mem => by
    rw [List.mem_singleton.1 (show other ∈ [name] from mem)]
    exact offers
  have loaded := loads_loaded [.load name] started ok
  have pending := loads_pending [name] sound ok settled
  have drawn := load_drawable sound name ok.1 drawable
  have compilable := (willing.moves (step_moves sound (.load name))).compilable
  have sound₁ := step_sound sound (.loadShader name)
  have sound₂ := step_sound sound₁ refusal
  have mem : name ∈ [] ++ [Load.load name].flatMap Load.names := List.mem_cons_self
  obtain ⟨e, there, built, definition, declared, made⟩ := loaded.built_declared pending mem
  have one := single definition e.object.shader declared made
  have lights : e.object.shader.lightingPasses ≠ [] := by rw [one.2]; exact List.cons_ne_nil _ _
  have refused : Attempt.Ends (Library.regenerateExcept []) _ _ Attempt.Refused :=
    Library.regenerate_refused (refusal_unpiped sound₁ compilable) sound₂.idle there built
      List.not_mem_nil lights
  have undrawable : ¬ (((s.step (.loadShader name)).step refusal).step .regenerate).library.Drawable :=
    fun drawn' => ((step_carried sound₂ .regenerate).drawable drawn).1 drawn' refused
  have moves : Library.Moves _ _ (((s.step (.loadShader name)).step refusal).step
      .regenerate).library _ := regenerate_moves sound₂
  obtain ⟨e', there', _, same, stays⟩ := moves.entry there
  have found := Library.built?_eq_some.2 ⟨e', there', stays built, rfl⟩
  have count : e'.object.shader.passCount = 1 := by rw [same]; exact one.1
  refine ⟨e'.object, found, count, ?_, ?_⟩
  · exact (step_sound sound₂ .regenerate).library.allCompiled name e'.object found 0
      (by rw [count]; decide)
  · -- Otherwise the only shader could be drawn.
    refine Option.not_isSome_iff_eq_none.1 fun made' => undrawable ?_
    intro other e'' there'' _ index lt
    obtain ⟨e₁, there₁, _⟩ := regenerate_entry sound₂ there''
    have eq : other = name := List.mem_singleton.1 ((loaded.known other).1 ⟨e₁, there₁⟩)
    subst eq
    cases there'.symm.trans there''
    rw [count, Nat.lt_one_iff] at lt
    rw [lt]
    exact made'

/-- A regeneration that the device stops leaves the lighting shader built, with its pass
compiled and no pipeline to draw it with. -/
theorem regeneration_takes_pipeline :
    ∃ o, (((twoShaders.step (.loadShader "Screen")).step refusal).step
        .regenerate).library.built? "Screen" = some o ∧
      o.shader.passCount = 1 ∧ (o.compiled? 0).isSome ∧ o.pipeline? 0 = none := by
  refine load_refuse_regenerate (start_sound ..) (start_loaded ..) rfl (fun _ _ is => nomatch is)
    twoShaders_willing (twoShaders_offers "Screen" (.inl rfl)) ?_
  rintro definition shader ⟨_, _, declares⟩ made
  rcases eq_of_twoShaders_declares declares with ⟨_, rfl⟩ | ⟨eq, _⟩
  · cases made
    exact ⟨rfl, rfl⟩
  · exact absurd eq (by decide)

end Session

end SurfaceShading
