/-
  Bringing lighting passes up to date. Over a list of shaders, lighting passes are made anew
  one after the other up to the first failure (`rebuildLighting_ends`). Around it the registry
  is closed, and a regeneration that does not fail declares all lighting up to date, which is
  right as soon as the shaders it skipped were (`regenerateExcept_ends`).

  A regeneration that the device stops by refusing a pipeline leaves a shader that counts as
  built with a pass that cannot be drawn. It is the only way to get there, and no shader is
  unbuilt by it.
-/
import SurfaceShading.Proofs.Library.Build

namespace SurfaceShading

/-- Every lighting pass is compiled for the given models and has a pipeline. -/
def ShaderObject.LitAndDrawn (o : ShaderObject) (models : List ShadingModel)
    (options : SourceOptions) : Prop :=
  ∀ index ∈ o.shader.lightingPasses,
    o.Current models options index ∧ (o.pipeline? index).isSome

namespace Library

/-- Every shader that was built can be drawn. -/
def Drawable (l : Library) : Prop :=
  ∀ name e, l.shaders.get? name = some e → e.built = true → e.object.Drawable

/-- What making the lighting passes of some shaders anew comes to. -/
structure Relit (names : List String) (l : Library) (h : Host) (r : Except Error Nat)
    (l' : Library) (h' : Host) : Prop where
  moves : Moves l h l' h'
  same : l' = { l with shaders := l'.shaders }
  others : SameBut names l l'
  entries : ∀ {name e}, l.shaders.get? name = some e → ∃ e', l'.shaders.get? name = some e' ∧
    e'.built = e.built ∧
    e.object.Reworked l.registry.models l.config.sourceOptions h e'.object h'
  known : ∀ {name}, l.shaders.get? name = none → l'.shaders.get? name = none
  renewed : ∀ n, r = .ok n → ∀ name ∈ names, ∀ e, l'.shaders.get? name = some e →
    e.object.LitAndDrawn l.registry.models l.config.sourceOptions
  stopped : ∀ d, r = .error (.device d) → ∃ name ∈ names, ∃ e, l'.shaders.get? name = some e ∧
    ∃ index ∈ e.object.shader.lightingPasses, e.object.pipeline? index = none
  kept : (∀ d, r ≠ .error (.device d)) → ∀ {name e e'}, l.shaders.get? name = some e →
    l'.shaders.get? name = some e' →
    ∀ index, (e.object.pipeline? index).isSome → (e'.object.pipeline? index).isSome

/-- Nothing is made anew when none of the shaders is known. -/
theorem Relit.nothing {names : List String} (l : Library) (h : Host)
    (unknown : ∀ name ∈ names, l.shaders.get? name = none) : Relit names l h (.ok 0) l h := by
  refine ⟨.none, rfl, .refl _ _, fun there => ⟨_, there, rfl, .refl ⟨.refl _, .refl _, .refl _⟩⟩,
    id, fun _ _ other mem e is => ?_, nofun, fun _ _ _ _ is is' => ?_⟩
  · rw [unknown other mem] at is
    cases is
  · rw [is] at is'
    cases is'
    exact fun _ some => some

/-- One known shader whose lighting passes are made anew. -/
theorem Relit.ofRebuilt {l : Library} {h h' : Host} {name : String} {e : ShaderEntry}
    {o : ShaderObject} {r : Except Error Nat} (there : l.shaders.get? name = some e)
    (rebuilt : e.object.Rebuilt l.registry.models l.config.sourceOptions
      e.object.shader.lightingPasses h r o h') :
    Relit [name] l h r (l.replacing name { e with object := o }) h' := by
  have others (other : String) (ne : other ≠ name) :
      (l.replacing name { e with object := o }).shaders.get? other = l.shaders.get? other :=
    get?_replacing_of_ne l ne _
  have self := get?_replacing_self l name { e with object := o }
  refine ⟨(Move.rework there rebuilt.reworked).moves, rfl, fun other notMem => others other
    (mt List.mem_singleton.2 notMem), ?_, ?_, ?_, ?_, ?_⟩
  · intro other e' is
    by_cases eq : other = name
    · subst eq
      rw [there] at is
      cases is
      exact ⟨_, self, rfl, rebuilt.reworked⟩
    · exact ⟨e', (others other eq).trans is, rfl, .refl rebuilt.reworked.world⟩
  · intro other is
    have ne : other ≠ name := fun eq => by rw [eq, there] at is; cases is
    exact (others other ne).trans is
  · intro n ok other mem e' is
    rw [List.mem_singleton.1 mem, self] at is
    cases is
    intro index lights
    rw [rebuilt.reworked.shader] at lights
    exact (rebuilt.renewed n ok).2 index lights
  · intro d error
    obtain ⟨index, lights, none, _⟩ := rebuilt.stopped d error
    refine ⟨name, List.mem_cons_self, _, self, index, ?_, none⟩
    rw [rebuilt.reworked.shader]
    exact lights
  · intro plain other e₁ e₂ is is' index some
    by_cases eq : other = name
    · subst eq
      rw [there] at is
      rw [self] at is'
      cases is
      cases is'
      exact rebuilt.kept plain index some
    · rw [others other eq, is] at is'
      cases is'
      exact some

theorem relit_one {models : List ShadingModel} {l : Library} {h : Host} (name : String)
    (sound : l.Sound h.device) (now : models = l.registry.models) :
    Attempt.Ends (onShader name 0 (ShaderObject.rebuildLighting models l.compileTarget)) l h
      (Relit [name] l h) := by
  subst now
  cases there : l.shaders.get? name with
  | none =>
    rw [ends_onShader_of_unknown there]
    exact .nothing l h fun other mem => by rw [List.mem_singleton.1 mem, there]
  | some e =>
    rw [ends_onShader there]
    exact (ShaderObject.rebuildLighting_ends e.object h (sound.entry there).fits).mono
      fun r o h' rebuilt => .ofRebuilt there rebuilt

theorem Relit.cons {name : String} {rest : List String} {l l₁ l' : Library} {h h₁ h' : Host}
    {n : Nat} {r : Except Error Nat} (first : Relit [name] l h (.ok n) l₁ h₁)
    (second : Relit rest l₁ h₁ r l' h') :
    Relit (name :: rest) l h (r.map (n + ·)) l' h' := by
  have registry : l₁.registry = l.registry := by rw [first.same]
  have config : l₁.config = l.config := by rw [first.same]
  refine ⟨first.moves.trans second.moves, second.same.trans (by rw [first.same]),
    first.others.cons second.others, ?_, ?_, ?_, ?_, ?_⟩
  · intro other e there
    obtain ⟨e₁, there₁, built₁, reworked₁⟩ := first.entries there
    obtain ⟨e₂, there₂, built₂, reworked₂⟩ := second.entries there₁
    rw [registry, config] at reworked₂
    exact ⟨e₂, there₂, built₂.trans built₁, reworked₁.trans reworked₂⟩
  · exact fun unknown => second.known (first.known unknown)
  · intro m ok other mem e₂ there₂
    cases r with
    | error _ => cases ok
    | ok k =>
      by_cases inRest : other ∈ rest
      · have lit := second.renewed k rfl other inRest e₂ there₂
        rwa [registry, config] at lit
      · cases there₁ : l₁.shaders.get? other with
        | none => rw [second.known there₁] at there₂; cases there₂
        | some e₁ =>
          have eq : other ∈ [name] :=
            List.mem_singleton.2 ((List.mem_cons.1 mem).resolve_right inRest)
          have lit := first.renewed n rfl other eq e₁ there₁
          rw [second.others other inRest, there₁] at there₂
          cases there₂
          exact lit
  · intro d error
    cases r with
    | ok _ => cases error
    | error e =>
      cases error
      obtain ⟨other, mem, rest⟩ := second.stopped d rfl
      exact ⟨other, List.mem_cons_of_mem name mem, rest⟩
  · intro plain other e e₂ there there₂ index some
    obtain ⟨e₁, there₁, _⟩ := first.entries there
    refine second.kept (fun d error => plain d ?_) there₁ there₂ index
      (first.kept nofun there there₁ index some)
    rw [error]
    rfl

theorem rebuildLighting_ends (names : List String) {models : List ShadingModel} (l : Library)
    (h : Host) (sound : l.Sound h.device) (now : models = l.registry.models) :
    Attempt.Ends (rebuildLighting models names) l h (Relit names l h) := by
  induction names generalizing l h with
  | nil => exact .nothing l h fun _ mem => absurd mem List.not_mem_nil
  | cons name rest ih =>
    unfold rebuildLighting
    rw [Attempt.ends_bind, Attempt.ends_get, Attempt.after_ok]
    refine (relit_one name sound now).bind ?_ ?_
    · intro n l₁ h₁ first
      have now₁ : models = l₁.registry.models := by rw [first.same]; exact now
      refine (ih l₁ h₁ (first.moves.sound sound) now₁).bind ?_ ?_
      · exact fun m l₂ h₂ second => first.cons second
      · exact fun e l₂ h₂ second => first.cons second
    · intro e l₁ h₁ first
      refine { first with others := first.others.cons (.refl rest l₁), renewed := nofun,
                          stopped := fun d error => ?_ }
      obtain ⟨other, mem, held⟩ := first.stopped d error
      exact ⟨other, List.mem_singleton.1 mem ▸ List.mem_cons_self, held⟩

/-! ## Regeneration -/

theorem mem_builtShaders_keys {l : Library} (sorted : l.shaders.Sorted) {name : String} :
    name ∈ l.builtShaders.keys ↔ ∃ e, l.shaders.get? name = some e ∧ e.built = true := by
  unfold builtShaders
  rw [OrderedMap.mem_keys_iff]
  simp only [sorted.get?_filter, Option.filter_eq_some_iff]

/-- The shaders whose lighting passes a regeneration makes anew. -/
def relitNames (l : Library) (skipped : List String) : List String :=
  l.builtShaders.keys.filter fun name => !skipped.contains name

theorem mem_relitNames {l : Library} (sorted : l.shaders.Sorted) {skipped : List String}
    {name : String} : name ∈ l.relitNames skipped ↔
      (∃ e, l.shaders.get? name = some e ∧ e.built = true) ∧ name ∉ skipped := by
  unfold relitNames
  rw [List.mem_filter, mem_builtShaders_keys sorted, Bool.not_eq_true', List.contains_eq_mem,
    decide_eq_false_iff_not]

/-- The lighting passes of some shaders, as far as they were built, are up to date. -/
def LitAt (l : Library) (names : List String) : Prop :=
  ∀ name ∈ names, ∀ e, l.shaders.get? name = some e → e.built = true →
    e.object.Lit l.registry.models l.config.sourceOptions

/-- What a regeneration makes of a library. It ends the need for one iff it does not fail, no
shader is built or unbuilt by it, and shaders that could all be drawn before still can iff the
device did not stop it. -/
structure Regenerated (l : Library) (h : Host) (r : Except Error Nat) (l' : Library)
    (h' : Host) : Prop where
  moves : Moves l h l' h'
  same : l' = { l with
    shaders := l'.shaders, registry := { l.registry with dirty := l'.registry.dirty } }
  clean : ∀ n, r = .ok n → l'.registry.dirty = false
  dirty : ∀ e, r = .error e → l'.registry.dirty = l.registry.dirty
  entries : ∀ {name e}, l.shaders.get? name = some e →
    ∃ e', l'.shaders.get? name = some e' ∧ e'.built = e.built
  known : ∀ {name}, l.shaders.get? name = none → l'.shaders.get? name = none
  drawable : l.Drawable → (l'.Drawable ↔ ∀ d, r ≠ .error (.device d))

/-- Shaders can all be drawn after lighting passes were made anew iff the device refused no
pipeline. -/
theorem Relit.drawable_iff {names : List String} {l l' : Library} {h h' : Host}
    {r : Except Error Nat} (relit : Relit names l h r l' h')
    (built : ∀ name ∈ names, ∃ e, l.shaders.get? name = some e ∧ e.built = true)
    (drawable : l.Drawable) : l'.Drawable ↔ ∀ d, r ≠ .error (.device d) := by
  constructor
  · rintro drawable' d rfl
    obtain ⟨name, mem, e', there', index, lights, none⟩ := relit.stopped d rfl
    obtain ⟨e, there, built⟩ := built name mem
    obtain ⟨e'', there'', same, _⟩ := relit.entries there
    cases there'.symm.trans there''
    have some := drawable' name e' there' (same.trans built) index
      (Shader.lt_passCount_of_mem_lightingPasses lights)
    rw [none] at some
    cases some
  · intro plain name e' there' built' index lt
    cases there : l.shaders.get? name with
    | none => rw [relit.known there] at there'; cases there'
    | some e =>
      obtain ⟨e'', there'', same, reworked⟩ := relit.entries there
      cases there'.symm.trans there''
      rw [reworked.shader] at lt
      exact relit.kept plain there there' index
        (drawable name e there (same.symm.trans built') index lt)

/-- All lighting is up to date once it was made anew for all shaders that were built, but for
some that were up to date. -/
theorem Relit.allLit {skipped : List String} {l l' : Library} {h h' : Host} {n : Nat}
    (relit : Relit (l.relitNames skipped) l h (.ok n) l' h') (sorted : l.shaders.Sorted)
    (lit : l.LitAt skipped) (name : String) (e : ShaderEntry)
    (there' : l'.shaders.get? name = some e) (built' : e.built = true) :
    e.object.Lit l'.registry.models l'.config.sourceOptions := by
  have registry : l'.registry = l.registry := by rw [relit.same]
  have config : l'.config = l.config := by rw [relit.same]
  rw [registry, config]
  by_cases mem : name ∈ l.relitNames skipped
  · exact fun index lights => (relit.renewed n rfl name mem e there' index lights).1
  · have there := (relit.others name mem).symm.trans there'
    have skips : name ∈ skipped := Decidable.byContradiction fun notSkipped =>
      mem ((mem_relitNames sorted).2 ⟨⟨e, there, built'⟩, notSkipped⟩)
    exact lit name skips e there built'

/-- What was made anew while the registry was closed, once it is idle again. -/
theorem Relit.regenerated {skipped : List String} {l l₁ : Library} {h h₁ h' : Host}
    {r : Except Error Nat} {dirty : Bool}
    (relit : Relit ((l.turned .regenerating).relitNames skipped) (l.turned .regenerating) h r
      l₁ h₁)
    (sorted : l.shaders.Sorted) (idle : l.registry.state = .idle)
    (clean : ∀ n, r = .ok n → dirty = false) (left : ∀ e, r = .error e → dirty = l.registry.dirty)
    (moves : Moves l h ((l₁.marked dirty).turned .idle) h') :
    Regenerated l h r ((l₁.marked dirty).turned .idle) h' where
  moves := moves
  same := by rw [relit.same, ← idle]; rfl
  clean := clean
  dirty := left
  entries there :=
    let ⟨e', there', same, _⟩ := relit.entries there
    ⟨e', there', same⟩
  known := relit.known
  drawable drawable := by
    have built : ∀ name ∈ (l.turned .regenerating).relitNames skipped,
        ∃ e, l.shaders.get? name = some e ∧ e.built = true :=
      fun name mem => ((mem_relitNames (l := l.turned .regenerating) sorted).1 mem).1
    exact relit.drawable_iff built drawable

theorem regenerateExcept_ends (skipped : List String) (l : Library) (h : Host)
    (sound : l.Sound h.device) (idle : l.registry.state = .idle) (lit : l.LitAt skipped) :
    Attempt.Ends (regenerateExcept skipped) l h (Regenerated l h) := by
  unfold regenerateExcept onRegistry
  simp only [ModelRegistry.beginRegeneration, idle, Attempt.ends_bind, Attempt.ends_get,
    Attempt.after_ok, Attempt.ends_modify, Attempt.ends_liftWork, Work.ends_run]
  have opened : Moves l h (l.turned .regenerating) h := (Move.turn .regenerating).moves
  refine (rebuildLighting_ends ((l.turned .regenerating).relitNames skipped)
    (l.turned .regenerating) h (opened.sound sound) rfl).mono fun r l₁ h₁ relit => ?_
  have state : l₁.registry.state = .regenerating := by rw [relit.same]; rfl
  cases r with
  | ok count =>
    simp only [Attempt.ends_bind, Attempt.ends_modify, Attempt.after_ok,
      ModelRegistry.finishRegeneration, if_pos state]
    refine Attempt.Ends.afterKeeping (report_keeps _).builds fun h₂ builds => ?_
    have lit₁ := relit.allLit sound.shaders_sorted lit
    have moves : Moves l h ((l₁.marked false).turned .idle) h₂ :=
      .step (.step (.step (opened.trans relit.moves) (.finish lit₁)) (.turn .idle)) (.world builds)
    exact relit.regenerated sound.shaders_sorted idle (fun _ _ => rfl) nofun moves
  | error e =>
    simp only [Attempt.ends_bind, Attempt.ends_modify, Attempt.after_ok,
      ModelRegistry.abortRegeneration, if_pos state, Attempt.ends_throw]
    have left : l₁.registry.dirty = l.registry.dirty := by rw [relit.same]; rfl
    have moves : Moves l h ((l₁.marked l₁.registry.dirty).turned .idle) h₁ :=
      .step (opened.trans relit.moves) (.turn .idle)
    exact relit.regenerated sound.shaders_sorted idle nofun (fun _ _ => left) moves

end Library

end SurfaceShading
