/-
  Compiling what is pending, and loading one shader. Both build shaders and then bring the
  lighting of the others up to date if a model was registered since that was last done. For
  each the file says what an answer without an error means, and when a library whose shaders
  can all be drawn is one afterwards: unless the device refuses a pipeline to the regeneration
  (`StopsPending`, `StopsLoad`).
-/
import SurfaceShading.Proofs.Library.Regenerate
import SurfaceShading.Proofs.Library.Register

namespace SurfaceShading

namespace Library

open Attempt (Refused)

/-! ## Lighting brought up to date -/

/-- From here a regeneration is due, and the device stops it by refusing a pipeline. -/
def StopsHere (skipped : List String) (l : Library) (h : Host) : Prop :=
  l.registry.dirty = true ∧ Attempt.Ends (regenerateExcept skipped) l h Refused

/-- What becomes of a library whose lighting is brought up to date where that is due. -/
structure Refreshed (skipped : List String) (l : Library) (h : Host) (l' : Library)
    (h' : Host) : Prop where
  moves : Moves l h l' h'
  same : l' = { l with
    shaders := l'.shaders, registry := { l.registry with dirty := l'.registry.dirty } }
  entries : ∀ {name e}, l.shaders.get? name = some e →
    ∃ e', l'.shaders.get? name = some e' ∧ e'.built = e.built
  known : ∀ {name}, l.shaders.get? name = none → l'.shaders.get? name = none
  drawable : l.Drawable → (l'.Drawable ↔ ¬ StopsHere skipped l h)

theorem not_stopsHere {l : Library} (clean : l.registry.dirty = false) (skipped : List String)
    (h : Host) : ¬ StopsHere skipped l h := fun stops => by
  rw [stops.1] at clean
  cases clean

theorem Refreshed.ofClean {l : Library} {h : Host} (skipped : List String)
    (clean : l.registry.dirty = false) : Refreshed skipped l h l h where
  moves := .none
  same := rfl
  entries there := ⟨_, there, rfl⟩
  known unknown := unknown
  drawable drawable := iff_of_true drawable (not_stopsHere clean skipped h)

theorem Refreshed.world {skipped : List String} {l l' : Library} {h h₁ h' : Host}
    (refreshed : Refreshed skipped l h l' h₁) (builds : h₁.Builds h') :
    Refreshed skipped l h l' h' :=
  { refreshed with moves := .step refreshed.moves (.world builds) }

/-- A shader of the refreshed library was one before, as much built. -/
theorem Refreshed.before {skipped : List String} {l l' : Library} {h h' : Host}
    (refreshed : Refreshed skipped l h l' h') {name : String} {e' : ShaderEntry}
    (there' : l'.shaders.get? name = some e') :
    ∃ e, l.shaders.get? name = some e ∧ e'.built = e.built := by
  cases there : l.shaders.get? name with
  | none => rw [refreshed.known there] at there'; cases there'
  | some e =>
    obtain ⟨e'', there'', same⟩ := refreshed.entries there
    cases there'.symm.trans there''
    exact ⟨e, rfl, same⟩

theorem regenerate_refreshes (skipped : List String) (l : Library) (h : Host)
    (sound : l.Sound h.device) (idle : l.registry.state = .idle) (lit : l.LitAt skipped)
    (dirty : l.registry.dirty = true) :
    Attempt.Ends (regenerateExcept skipped) l h fun r l' h' => Refreshed skipped l h l' h' ∧
      ∀ n, r = .ok n → l'.registry.dirty = false ∧ ¬ StopsHere skipped l h := by
  refine ((regenerateExcept_ends skipped l h sound idle lit).and (.here _ _ _ Refused)).mono ?_
  rintro r l' h' ⟨regenerated, refused⟩
  refine ⟨⟨regenerated.moves, regenerated.same, regenerated.entries, regenerated.known,
    fun drawable => ?_⟩, fun n ok => ⟨regenerated.clean n ok, fun stops => ?_⟩⟩
  · rw [regenerated.drawable drawable, ← not_exists, StopsHere, refused]
    exact not_congr ⟨fun is => ⟨dirty, is⟩, fun is => is.2⟩
  · obtain ⟨d, error⟩ := refused.1 stops.2
    rw [ok] at error
    cases error

/-! ## Pending shaders -/

/-- The library without pending shaders. -/
def unqueued (l : Library) : Library := { l with pending := [] }

/-- The pending shaders in the order in which they are built. -/
def pendingOrder (l : Library) : List String := buildOrder l.config.sharedShader l.pending

/-- Compiling what is pending comes to a regeneration that the device stops. -/
def StopsPending (l : Library) (h : Host) : Prop :=
  Attempt.Ends (buildAll l.pendingOrder) l.unqueued h fun r l₁ h₁ =>
    r = .ok () ∧ StopsHere l.pendingOrder l₁ h₁

/-- What compiling the pending shaders comes to. -/
structure PendingCompiled (l : Library) (h : Host) (r : Except Error Unit) (l' : Library)
    (h' : Host) : Prop where
  moves : Moves l h l' h'
  idle : l'.registry.state = .idle
  known : ∀ {name}, l.shaders.get? name = none → l'.shaders.get? name = none
  done : r = .ok () → l'.registry.dirty = false ∧ l'.pending = []
  built : r = .ok () → ∀ {name e e'}, l.shaders.get? name = some e →
    l'.shaders.get? name = some e' → (e'.built = true ↔ name ∈ l.pending ∨ e.built = true)
  drawable : l.Drawable → (l'.Drawable ↔ ¬ l.StopsPending h)

theorem BuiltAll.drawable {names : List String} {l l' : Library} {h h' : Host}
    {r : Except Error Unit} (all : BuiltAll names l h r l' h') (drawable : l.Drawable) :
    l'.Drawable := by
  intro name e there built
  rcases all.entry there with finished | unbuilt | same
  · exact finished.drawable
  · rw [built] at unbuilt; cases unbuilt
  · exact drawable name e same built

theorem BuiltAll.allFinished {names : List String} {l l' : Library} {h h' : Host}
    (all : BuiltAll names l h (.ok ()) l' h') :
    l'.pending = [] ∧ l'.AllFinished names l.registry.models l.config.sourceOptions := by
  cases all.ends with
  | all empty done => exact ⟨empty, done⟩

theorem BuiltAll.built {names : List String} {l l' : Library} {h h' : Host}
    (all : BuiltAll names l h (.ok ()) l' h') {name : String} {e e' : ShaderEntry}
    (there : l.shaders.get? name = some e) (there' : l'.shaders.get? name = some e') :
    e'.built = true ↔ name ∈ names ∨ e.built = true := by
  by_cases mem : name ∈ names
  · obtain ⟨e'', there'', finished⟩ := all.allFinished.2 name mem
    cases there'.symm.trans there''
    exact ⟨fun _ => .inl mem, fun _ => finished.built⟩
  · rw [all.others name mem, there] at there'
    cases there'
    exact ⟨.inr, fun is => is.resolve_left mem⟩

theorem BuiltAll.litAt {names : List String} {l l' : Library} {h h' : Host}
    (all : BuiltAll names l h (.ok ()) l' h') : l'.LitAt names := by
  intro name mem e there _
  obtain ⟨e', there', finished⟩ := all.allFinished.2 name mem
  cases there.symm.trans there'
  have registry : l'.registry = l.registry := by rw [all.same]
  have config : l'.config = l.config := by rw [all.same]
  rw [registry, config]
  exact finished.lit

theorem Waiting.known {l l' : Library} {names : List String} (waiting : l.Waiting names)
    (others : SameBut names l l') {name : String} (unknown : l.shaders.get? name = none) :
    l'.shaders.get? name = none := by
  refine (others name fun mem => ?_).trans unknown
  obtain ⟨e, there, _⟩ := waiting name mem
  cases unknown.symm.trans there

/-- All pending shaders were built, and then lighting was brought up to date as far as that
went. -/
theorem PendingCompiled.ofRefreshed {l l₁ l' : Library} {h h₁ h' : Host} {r : Except Error Unit}
    (waiting : l.unqueued.Waiting l.pendingOrder) (emptied : Moves l h l.unqueued h)
    (all : BuiltAll l.pendingOrder l.unqueued h (.ok ()) l₁ h₁)
    (refreshed : Refreshed l.pendingOrder l₁ h₁ l' h') (idle : l₁.registry.state = .idle)
    (stops : l.StopsPending h ↔ StopsHere l.pendingOrder l₁ h₁)
    (clean : r = .ok () → l'.registry.dirty = false) : PendingCompiled l h r l' h' where
  moves := emptied.trans (all.moves.trans refreshed.moves)
  idle := by rw [refreshed.same]; exact idle
  known unknown := refreshed.known (waiting.known all.others unknown)
  done ok := ⟨clean ok, by rw [refreshed.same]; exact all.allFinished.1⟩
  built _ name e e' there there' := by
    obtain ⟨e₁, there₁, same⟩ := refreshed.before there'
    rw [same, all.built there there₁, pendingOrder, mem_buildOrder]
  drawable drawable := by
    rw [refreshed.drawable (all.drawable (l := l.unqueued) drawable), stops]

theorem compilePending_ends (l : Library) (h : Host) (sound : l.Sound h.device)
    (idle : l.registry.state = .idle) :
    Attempt.Ends compilePending l h (PendingCompiled l h) := by
  have emptied : Moves l h l.unqueued h :=
    (Move.queue .nil fun _ mem => absurd mem List.not_mem_nil).moves
  have waiting : l.unqueued.Waiting l.pendingOrder :=
    fun name mem => sound.pending_waits name (mem_buildOrder.1 mem)
  unfold compilePending
  simp only [Attempt.ends_bind, Attempt.ends_get, Attempt.after_ok, Attempt.ends_set]
  refine ((buildAll_ends l.pendingOrder l.unqueued h (emptied.sound sound) rfl
    (nodup_buildOrder sound.pending_nodup) waiting).and
    (.here _ _ _ fun r l₁ h₁ => r = .ok () ∧ StopsHere l.pendingOrder l₁ h₁)).mono ?_
  rintro r l₁ h₁ ⟨all, stops⟩
  have moves := emptied.trans all.moves
  have idle₁ : l₁.registry.state = .idle := by rw [all.same]; exact idle
  cases r with
  | error e =>
    rw [Attempt.after_error]
    exact ⟨moves, idle₁, waiting.known all.others, nofun, nofun, fun drawable =>
      iff_of_true (all.drawable (l := l.unqueued) drawable) fun is => nomatch (stops.1 is).1⟩
  | ok _ =>
    have finish {r : Except Error Unit} {l' : Library} {h' : Host}
        (refreshed : Refreshed l.pendingOrder l₁ h₁ l' h')
        (clean : r = .ok () → l'.registry.dirty = false) : PendingCompiled l h r l' h' :=
      .ofRefreshed waiting emptied all refreshed idle₁
        (stops.trans ⟨fun is => is.2, fun is => ⟨rfl, is⟩⟩) clean
    simp only [Attempt.ends_bind, Attempt.ends_get, Attempt.after_ok]
    split
    · next dirty =>
      refine (regenerate_refreshes l.pendingOrder l₁ h₁ (moves.sound sound) idle₁ all.litAt
        dirty).bind ?_ ?_
      · exact fun n l₂ h₂ ⟨refreshed, clean⟩ => finish refreshed fun _ => (clean n rfl).1
      · exact fun e l₂ h₂ ⟨refreshed, _⟩ => finish refreshed nofun
    · next notDirty =>
      have clean : l₁.registry.dirty = false := Bool.eq_false_iff.2 notDirty
      exact finish (.ofClean l.pendingOrder clean) fun _ => clean

/-! ## One shader -/

/-- The library in which one shader is not pending. -/
def dequeued (l : Library) (name : String) : Library :=
  { l with pending := l.pending.filter (· ≠ name) }

theorem not_mem_dequeued (l : Library) (name : String) : name ∉ (l.dequeued name).pending := by
  simp [dequeued]

theorem Sound.dequeued {l : Library} {d : Device} (sound : l.Sound d) (h : Host) (name : String) :
    Move l h (l.dequeued name) h :=
  .queue (sound.pending_nodup.filter _) fun other mem =>
    sound.pending_waits other (List.mem_filter.1 mem).1

/-- Loading a shader comes to a regeneration that the device stops. -/
def StopsLoad (name : String) (l : Library) (h : Host) : Prop :=
  l.built? name = none ∧ Attempt.Ends (ensureShader name) l h fun r l₁ h₁ =>
    r = .ok () ∧ Attempt.Ends (buildShader name) (l₁.dequeued name) h₁ fun _ l₂ h₂ =>
      StopsHere [name] l₂ h₂

theorem settle_ends (name : String) (built : Except Error Unit) (l : Library) (h : Host)
    (sound : l.Sound h.device) (idle : l.registry.state = .idle) (lit : l.LitAt [name]) :
    Attempt.Ends (settle name built) l h fun r l' h' => Refreshed [name] l h l' h' ∧
      (r = .ok () → built = .ok () ∧ l'.registry.dirty = false ∧ ¬ StopsHere [name] l h) := by
  unfold settle
  rw [Attempt.ends_bind, Attempt.ends_get, Attempt.after_ok]
  split
  · next dirty =>
    rw [Attempt.ends_bind, Attempt.ends_liftWork, Work.ends_run]
    refine (regenerate_refreshes [name] l h sound idle lit dirty).mono ?_
    rintro r l' h' ⟨refreshed, clean⟩
    rw [Attempt.after_ok]
    cases built with
    | ok _ =>
      cases r with
      | ok n => exact ⟨refreshed, fun _ => ⟨rfl, clean n rfl⟩⟩
      | error e => exact ⟨refreshed, nofun⟩
    | error e =>
      cases r with
      | ok n => exact ⟨refreshed, nofun⟩
      | error e' =>
        simp only [Attempt.ends_bind, Attempt.ends_liftHost]
        exact (report_keeps _ h').mono fun _ h'' spares => ⟨refreshed.world spares.toBuilds, nofun⟩
  · next notDirty =>
    have clean : l.registry.dirty = false := Bool.eq_false_iff.2 notDirty
    exact ⟨.ofClean [name] clean, fun ok => ⟨ok, clean, not_stopsHere clean [name] h⟩⟩

theorem shader?_eq_some {l : Library} {name : String} {o : ShaderObject} :
    l.shader? name = some o ↔ ∃ e, l.shaders.get? name = some e ∧ e.object = o := by
  unfold shader?
  rw [Option.map_eq_some_iff]

theorem built?_eq_some {l : Library} {name : String} {o : ShaderObject} :
    l.built? name = some o ↔
      ∃ e, l.shaders.get? name = some e ∧ e.built = true ∧ e.object = o := by
  unfold built?
  simp only [Option.bind_eq_some_iff, Option.ite_none_right_eq_some, Option.some.injEq]

theorem built?_eq_none {l : Library} {name : String} :
    l.built? name = none ↔ ∀ e, l.shaders.get? name = some e → e.built = false := by
  unfold built?
  cases l.shaders.get? name with
  | none => simp
  | some e => cases built : e.built <;> simp [built]

theorem Gathered.drawable {l l' : Library} {h h' : Host} (gathered : Gathered l h l' h')
    (drawable : l.Drawable) : l'.Drawable := by
  intro name e there built
  rcases gathered.added there with old | ⟨_, unbuilt, _⟩
  · exact drawable name e old built
  · rw [built] at unbuilt; cases unbuilt

theorem Gathered.unbuilt {l l' : Library} {h h' : Host} (gathered : Gathered l h l' h')
    {name : String} (new : l.built? name = none) {e : ShaderEntry}
    (there : l'.shaders.get? name = some e) : e.built = false := by
  rcases gathered.added there with old | ⟨_, unbuilt, _⟩
  · exact built?_eq_none.1 new e old
  · exact unbuilt

/-- What the build of a shader that was not built comes to. -/
structure Tried (name : String) (l : Library) (h : Host) (r : Except Error Unit) (l' : Library)
    (h' : Host) : Prop where
  moves : Moves l h l' h'
  same : l' = { l with shaders := l'.shaders }
  others : SameBut [name] l l'
  lit : l'.LitAt [name]
  built : r = .ok () → ∃ e, l'.shaders.get? name = some e ∧ e.built = true
  drawable : l.Drawable → l'.Drawable

theorem buildShader_tries (name : String) {l : Library} {h : Host} (sound : l.Sound h.device)
    (free : name ∉ l.pending) {e : ShaderEntry} (there : l.shaders.get? name = some e)
    (unbuilt : e.built = false) : Attempt.Ends (buildShader name) l h (Tried name l h) := by
  refine (buildShader_ends name sound free there).mono ?_
  rintro r l' h' ⟨moves, same, others, e', there', finished, failed⟩
  have ends : e'.Finished l.registry.models l.config.sourceOptions ∨ e'.built = false := by
    cases r with
    | ok _ => exact .inl (finished rfl)
    | error err => exact .inr ((failed err rfl).trans unbuilt)
  refine ⟨moves, same, others, ?_, ?_, ?_⟩
  · intro other mem e'' there'' built
    cases List.mem_singleton.1 mem
    cases there'.symm.trans there''
    have registry : l'.registry = l.registry := by rw [same]
    have config : l'.config = l.config := by rw [same]
    rw [registry, config]
    rcases ends with finished | unbuilt
    · exact finished.lit
    · rw [built] at unbuilt; cases unbuilt
  · exact fun ok => ⟨e', there', (finished ok).built⟩
  · intro drawable other e'' there'' built
    by_cases eq : other = name
    · subst eq
      cases there'.symm.trans there''
      rcases ends with finished | unbuilt
      · exact finished.drawable
      · rw [built] at unbuilt; cases unbuilt
    · rw [others other (mt List.mem_singleton.1 eq)] at there''
      exact drawable other e'' there'' built

/-- What loading a shader that was not built comes to. -/
structure NewLoaded {α : Type} (name : String) (l : Library) (h : Host) (r : Except Error α)
    (l' : Library) (h' : Host) : Prop where
  moves : Moves l h l' h'
  idle : l'.registry.state = .idle
  others : ∀ other, other ≠ name → ∀ e', l'.shaders.get? other = some e' →
    ∃ e, l.shaders.get? other = some e ∧ e'.built = e.built
  done : ∀ a, r = .ok a → l'.registry.dirty = false ∧
    l'.pending = l.pending.filter (· ≠ name) ∧ ¬ StopsLoad name l h ∧
    ∃ e', l'.shaders.get? name = some e' ∧ e'.built = true
  drawable : l.Drawable → (l'.Drawable ↔ ¬ StopsLoad name l h)

theorem loadNew_ends (name : String) (l : Library) (h : Host) (sound : l.Sound h.device)
    (idle : l.registry.state = .idle) (new : l.built? name = none) :
    Attempt.Ends (loadNew name) l h (NewLoaded name l h) := by
  have isOpen : l.registry.state ≠ .regenerating := by rw [idle]; decide
  unfold loadNew
  refine ((ensureShader_gathers name isOpen).and (.here _ _ _ fun r l₁ h₁ => r = .ok () ∧
    Attempt.Ends (buildShader name) (l₁.dequeued name) h₁ fun _ l₂ h₂ =>
      StopsHere [name] l₂ h₂)).bind ?_ ?_
  · rintro _ l₁ h₁ ⟨⟨gathered, knows, others, pending⟩, stops⟩
    obtain ⟨e, there⟩ := knows rfl
    have unbuilt : e.built = false := gathered.unbuilt new there
    have sound₁ := gathered.moves.sound sound
    have dequeued : Move l₁ h₁ (l₁.dequeued name) h₁ := sound₁.dequeued h₁ name
    have free : name ∉ (l₁.dequeued name).pending := not_mem_dequeued l₁ name
    simp only [Attempt.ends_bind, Attempt.ends_modify, Attempt.after_ok, Attempt.ends_liftWork,
      Work.ends_run]
    refine ((buildShader_tries name (dequeued.sound sound₁) free there unbuilt).and (.here _ _ _
      fun _ l₂ h₂ => StopsHere [name] l₂ h₂)).mono ?_
    rintro built l₂ h₂ ⟨tried, stops'⟩
    have moves := (Moves.step gathered.moves dequeued).trans tried.moves
    have idle₂ : l₂.registry.state = .idle := by
      rw [tried.same]
      exact gathered.state.trans idle
    refine (settle_ends name built l₂ h₂ (moves.sound sound) idle₂ tried.lit).mono ?_
    rintro r l' h' ⟨refreshed, done⟩
    have stops_iff : StopsLoad name l h ↔ StopsHere [name] l₂ h₂ := by
      rw [StopsLoad, stops, stops']
      exact ⟨fun is => is.2.2, fun is => ⟨new, rfl, is⟩⟩
    refine ⟨moves.trans refreshed.moves, by rw [refreshed.same]; exact idle₂, ?_, ?_, ?_⟩
    · intro other ne e' there'
      obtain ⟨e₂, there₂, same⟩ := refreshed.before there'
      have notMem := mt List.mem_singleton.1 ne
      rw [tried.others other notMem] at there₂
      exact ⟨e₂, (others other notMem).symm.trans there₂, same⟩
    · intro a ok
      cases ok
      obtain ⟨rfl, clean, unstopped⟩ := done rfl
      obtain ⟨e₂, there₂, built⟩ := tried.built rfl
      obtain ⟨e', there', same⟩ := refreshed.entries there₂
      refine ⟨clean, ?_, mt stops_iff.1 unstopped, e', there', same.trans built⟩
      rw [refreshed.same]
      show l₂.pending = _
      rw [tried.same]
      exact pending
    · intro drawable
      rw [refreshed.drawable (tried.drawable (gathered.drawable drawable)), stops_iff]
  · rintro e l₁ h₁ ⟨⟨gathered, _, others, _⟩, stops⟩
    refine ⟨gathered.moves, gathered.state.trans idle, ?_, nofun, ?_⟩
    · exact fun other ne e' there' =>
        ⟨e', (others other (mt List.mem_singleton.1 ne)).symm.trans there', rfl⟩
    · exact fun drawable => iff_of_true (gathered.drawable drawable)
        fun is => nomatch (stops.1 is.2).1

/-- A shader that was built is given as it is. Otherwise it is loaded. -/
theorem loadShader_ends (name : String) (l : Library) (h : Host) (sound : l.Sound h.device)
    (idle : l.registry.state = .idle) :
    Attempt.Ends (loadShader name) l h fun r l' h' =>
      (∃ o, l.built? name = some o ∧ r = .ok o ∧ l' = l ∧ h.Builds h') ∨
      (l.built? name = none ∧ NewLoaded name l h r l' h') := by
  unfold loadShader
  rw [Attempt.ends_bind, Attempt.ends_get, Attempt.after_ok]
  split
  · next o there =>
    simp only [Attempt.ends_bind, Attempt.ends_liftHost]
    exact (report_keeps _ h).mono fun _ h' spares => .inl ⟨o, there, rfl, rfl, spares.toBuilds⟩
  · next new =>
    refine (loadNew_ends name l h sound idle new).bind ?_ ?_
    · intro _ l' h' loaded
      obtain ⟨_, _, _, e, there, _⟩ := loaded.done () rfl
      have found : l'.shader? name = some e.object := by rw [shader?, there]; rfl
      simp only [requireShader, Attempt.ends_bind, Attempt.ends_get, Attempt.after_ok, found,
        Attempt.ends_pure]
      exact .inr ⟨new, { loaded with done := fun _ _ => loaded.done () rfl }⟩
    · exact fun e l' h' loaded => .inr ⟨new, { loaded with done := nofun }⟩

/-- The shader that is given is one of the library. -/
theorem loadShader_gives (name : String) (l : Library) (h : Host) :
    Attempt.Ends (loadShader name) l h fun r l' _ =>
      ∀ o, r = .ok o → ∃ e, l'.shaders.get? name = some e ∧ e.object = o := by
  unfold loadShader
  rw [Attempt.ends_bind, Attempt.ends_get, Attempt.after_ok]
  split
  · next o there =>
    obtain ⟨e, is, _, same⟩ := built?_eq_some.1 there
    simp only [Attempt.ends_bind, Attempt.ends_liftHost]
    refine .of_forall fun _ h' o' ok => ⟨e, is, ?_⟩
    cases ok
    exact same
  · have loaded : Attempt.Ends (loadNew name) l h fun _ _ _ => True := trivial
    refine loaded.bind (fun _ l' h' _ => ?_) fun _ _ _ _ o ok => by cases ok
    unfold requireShader shader?
    rw [Attempt.ends_bind, Attempt.ends_get, Attempt.after_ok]
    cases there : l'.shaders.get? name with
    | none =>
      rintro o ok
      cases ok
    | some e =>
      rintro o ok
      cases ok
      exact ⟨e, there, rfl⟩

/-! ## All shaders -/

/-- Loading all shaders comes to a regeneration that the device stops. -/
def StopsAll (l : Library) (h : Host) : Prop :=
  Attempt.Ends registerAll l h fun r l₁ h₁ => ∃ n, r = .ok n ∧
    HostM.Ends (report (.shadersRegistered n)) h₁ fun _ h₂ => l₁.StopsPending h₂

/-- What loading all shaders comes to. -/
structure AllLoaded (l : Library) (h : Host) (r : Except Error Unit) (l' : Library)
    (h' : Host) : Prop where
  moves : Moves l h l' h'
  idle : l'.registry.state = .idle
  done : r = .ok () → ∃ l₁ h₁, Gathered l h l₁ h₁ ∧
    (∀ name ∈ l.sources.names h.disk, l₁.Knows name) ∧ PendingCompiled l₁ h₁ r l' h'
  drawable : l.Drawable → (l'.Drawable ↔ ¬ l.StopsAll h)

theorem loadAll_ends (l : Library) (h : Host) (sound : l.Sound h.device)
    (idle : l.registry.state = .idle) : Attempt.Ends loadAll l h (AllLoaded l h) := by
  unfold loadAll
  refine ((registerAll_ends l h idle).and (.here _ _ _ fun r l₁ h₁ => ∃ n, r = .ok n ∧
    HostM.Ends (report (.shadersRegistered n)) h₁ fun _ h₂ => l₁.StopsPending h₂)).bind ?_ ?_
  · rintro n l₁ h₁ ⟨⟨gathered, all⟩, stops⟩
    have gathered₂ {h₂ : Host} (builds : h₁.Builds h₂) : Gathered l h l₁ h₂ :=
      gathered.trans (.refl builds)
    simp only [Attempt.ends_bind, Attempt.ends_liftHost]
    refine ((report_keeps (.shadersRegistered n) h₁).and
      (.here _ _ fun _ h₂ => l₁.StopsPending h₂)).mono ?_
    rintro _ h₂ ⟨spares, stops'⟩
    have gathered := gathered₂ spares.toBuilds
    refine (compilePending_ends l₁ h₂ (gathered.moves.sound sound)
      (gathered.state.trans idle)).mono ?_
    intro r l' h' compiled
    refine ⟨gathered.moves.trans compiled.moves, compiled.idle,
      fun _ => ⟨l₁, h₂, gathered, all n rfl, compiled⟩, fun drawable => ?_⟩
    rw [compiled.drawable (gathered.drawable drawable), StopsAll, stops, ← stops']
    exact not_congr ⟨fun is => ⟨n, rfl, is⟩, fun ⟨_, eq, is⟩ => by cases eq; exact is⟩
  · rintro e l₁ h₁ ⟨⟨gathered, _⟩, stops⟩
    refine ⟨gathered.moves, gathered.state.trans idle, nofun, fun drawable => ?_⟩
    refine iff_of_true (gathered.drawable drawable) fun is => ?_
    obtain ⟨_, eq, _⟩ := stops.1 is
    cases eq

end Library

end SurfaceShading
