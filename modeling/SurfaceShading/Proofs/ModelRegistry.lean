/-
  The registry of shading models as a machine of six calls.

  `Effect` says once what a call can do. From it follows, call by call and then for every sequence
  of calls from the empty registry: a number keeps its first model, nothing is registered while
  lighting passes are generated, and a clean registry holds the models that were there when the
  generation that was finished last began (`ModelRegistry.keeps_account`).
-/
import Mathlib.Data.List.Induction
import SurfaceShading.Proofs.OrderedMap
import SurfaceShading.Shader.Registry

namespace SurfaceShading.ModelRegistry

/-- A call of a client. -/
inductive Call where
  | beginRegistration
  | endRegistration
  | register (model : ShadingModel)
  | beginRegeneration
  | finishRegeneration
  | abortRegeneration
  deriving Repr, DecidableEq

/-- The answer of a call that is not refused, where a registration says whether the number was
new, and the registry after it. -/
def attempt (r : ModelRegistry) : Call → Except RegistryConflict (Option Bool × ModelRegistry)
  | .beginRegistration => r.beginRegistration.map (none, ·)
  | .endRegistration => .ok (none, r.endRegistration)
  | .register model => (r.register model).map fun (new, r) => (some new, r)
  | .beginRegeneration => r.beginRegeneration.map (none, ·)
  | .finishRegeneration => .ok (none, r.finishRegeneration)
  | .abortRegeneration => .ok (none, r.abortRegeneration)

/-- The answer of a call and the registry that the next call finds. -/
def perform (r : ModelRegistry) (c : Call) :
    Except RegistryConflict (Option Bool) × ModelRegistry :=
  match r.attempt c with
  | .ok (answer, r) => (.ok answer, r)
  | .error conflict => (.error conflict, r)

/-- The registry after calls in order. -/
def run (r : ModelRegistry) (calls : List Call) : ModelRegistry :=
  calls.foldl (fun r c => (r.perform c).2) r

/-- What a registration answers and leaves behind. It is refused exactly while lighting passes are
generated; otherwise it says whether the number is new. -/
structure Registers (r : ModelRegistry) (model : ShadingModel)
    (answer : Except RegistryConflict (Option Bool)) (after : ModelRegistry) : Prop where
  refused : (∃ conflict, answer = .error conflict) ↔ r.state = .regenerating
  answered : r.state ≠ .regenerating → answer = .ok (some (r.get? model.id).isNone)
  added : answer = .ok (some true) → after.dirty = true ∧ after.get? model.id = some model ∧
    ∀ id, id ≠ model.id → after.get? id = r.get? id
  known : (r.get? model.id).isSome = true → after = r

/-- What a call can do to a registry. -/
inductive Effect (r : ModelRegistry) : Call → ModelRegistry → Prop where
  | none (c : Call) (idle : ¬(c = .finishRegeneration ∧ r.state = .regenerating)) : Effect r c r
  | opened (idle : r.state = .idle) :
      Effect r .beginRegistration { r with state := .registering }
  | closed (registering : r.state = .registering) :
      Effect r .endRegistration { r with state := .idle }
  | added {model : ShadingModel} (admitted : r.state ≠ .regenerating)
      (unknown : r.get? model.id = none) :
      Effect r (.register model)
        { r with entries := r.entries.insert model.id model, dirty := true }
  | begun (idle : r.state = .idle) :
      Effect r .beginRegeneration { r with state := .regenerating }
  | finished (regenerating : r.state = .regenerating) :
      Effect r .finishRegeneration { r with dirty := false, state := .idle }
  | aborted (regenerating : r.state = .regenerating) :
      Effect r .abortRegeneration { r with state := .idle }

/-! ## One call -/

section

variable {r r' : ModelRegistry} {c : Call}

/-- A registration is refused while lighting passes are generated; otherwise it says whether the
number is new, and takes the model in if it is. -/
theorem perform_register (r : ModelRegistry) (model : ShadingModel) :
    r.perform (.register model) =
      if r.state = .regenerating then (.error .registerWhileRegenerating, r)
      else if (r.get? model.id).isSome then (.ok (some false), r)
      else (.ok (some true),
        { r with entries := r.entries.insert model.id model, dirty := true }) := by
  by_cases regenerating : r.state = .regenerating
  · simp [perform, attempt, register, regenerating, Except.map]
  · cases known : r.get? model.id <;>
      simp [perform, attempt, register, regenerating, known, Except.map]

theorem registers_perform (r : ModelRegistry) (model : ShadingModel) :
    r.Registers model (r.perform (.register model)).1 (r.perform (.register model)).2 := by
  rw [perform_register]
  split
  · next regenerating =>
    exact ⟨by simp [regenerating], fun admitted => absurd regenerating admitted, by simp, by simp⟩
  · next admitted =>
    split
    · next known =>
      refine ⟨by simp [admitted], fun _ => ?_, by simp, by simp⟩
      simpa using known
    · next unknown =>
      refine ⟨by simp [admitted], fun _ => ?_, fun _ => ⟨rfl, ?_, fun id other => ?_⟩,
        by simp [unknown]⟩
      · simpa using unknown
      · exact OrderedMap.get?_insert_self ..
      · exact OrderedMap.get?_insert_of_ne _ other _

theorem perform_refused {conflict : RegistryConflict}
    (refused : (r.perform c).1 = .error conflict) : (r.perform c).2 = r := by
  unfold perform at refused ⊢
  split at refused
  · cases refused
  · rfl

theorem effect_perform (r : ModelRegistry) (c : Call) : Effect r c (r.perform c).2 := by
  have quiet {c : Call} (other : c ≠ .finishRegeneration) : Effect r c r :=
    .none c fun both => other both.1
  cases c with
  | beginRegistration =>
    cases state : r.state with
    | idle =>
      simpa [perform, attempt, beginRegistration, state, Except.map] using Effect.opened state
    | _ => simpa [perform, attempt, beginRegistration, state, Except.map] using quiet (by simp)
  | endRegistration =>
    by_cases registering : r.state = .registering
    · simpa [perform, attempt, endRegistration, registering] using Effect.closed registering
    · simpa [perform, attempt, endRegistration, registering] using quiet (by simp)
  | register model =>
    rw [perform_register]
    split
    · exact quiet (by simp)
    · next admitted =>
      split
      · exact quiet (by simp)
      · next unknown => exact .added admitted (by simpa using unknown)
  | beginRegeneration =>
    cases state : r.state with
    | idle =>
      simpa [perform, attempt, beginRegeneration, state, Except.map] using Effect.begun state
    | _ => simpa [perform, attempt, beginRegeneration, state, Except.map] using quiet (by simp)
  | finishRegeneration =>
    by_cases regenerating : r.state = .regenerating
    · simpa [perform, attempt, finishRegeneration, regenerating] using Effect.finished regenerating
    · simpa [perform, attempt, finishRegeneration, regenerating] using
        Effect.none Call.finishRegeneration fun both => regenerating both.2
  | abortRegeneration =>
    by_cases regenerating : r.state = .regenerating
    · simpa [perform, attempt, abortRegeneration, regenerating] using Effect.aborted regenerating
    · simpa [perform, attempt, abortRegeneration, regenerating] using quiet (by simp)

/-- No call takes a model away or puts another in its place. -/
theorem Effect.get? (effect : Effect r c r') {id : UInt32} {model : ShadingModel}
    (known : r.get? id = some model) : r'.get? id = some model := by
  cases effect with
  | @added new _ unknown =>
    have other : id ≠ new.id := by
      rintro rfl
      cases known.symm.trans unknown
    exact (OrderedMap.get?_insert_of_ne _ other _).trans known
  | none | opened | closed | begun | finished | aborted => exact known

/-- Nothing is registered while lighting passes are generated. -/
theorem Effect.entries_of_regenerating (effect : Effect r c r')
    (regenerating : r.state = .regenerating) : r'.entries = r.entries := by
  cases effect with
  | added admitted => exact absurd regenerating admitted
  | none | opened | closed | begun | finished | aborted => rfl

/-- Only the end of a generation cleans the registry, and any other call that leaves it clean
registers nothing. -/
theorem Effect.clean (effect : Effect r c r')
    (other : ¬(c = .finishRegeneration ∧ r.state = .regenerating)) (clean : r'.dirty = false) :
    r.dirty = false ∧ r'.entries = r.entries := by
  cases effect with
  | added => cases clean
  | finished regenerating => exact absurd ⟨rfl, regenerating⟩ other
  | none | opened | closed | begun | aborted => exact ⟨clean, rfl⟩

/-- A generation that is under way was so before the call, or the call began it. -/
theorem Effect.regenerating (effect : Effect r c r') (is : r'.state = .regenerating) :
    r.state = .regenerating ∨ c = .beginRegeneration ∧ r.state = .idle := by
  cases effect with
  | none => exact .inl is
  | begun idle => exact .inr ⟨rfl, idle⟩
  | added admitted => exact absurd is admitted
  | opened | closed | finished | aborted => cases is

end

/-! ## Sequences of calls -/

theorem run_append (r : ModelRegistry) (calls calls' : List Call) :
    r.run (calls ++ calls') = (r.run calls).run calls' := List.foldl_append

theorem run_concat (r : ModelRegistry) (calls : List Call) (c : Call) :
    r.run (calls ++ [c]) = ((r.run calls).perform c).2 := by
  rw [run_append]
  rfl

theorem run_get? {r : ModelRegistry} {id : UInt32} {model : ShadingModel}
    (known : r.get? id = some model) (calls : List Call) :
    (r.run calls).get? id = some model := by
  induction calls generalizing r with
  | nil => exact known
  | cons c calls ih => exact ih ((effect_perform r c).get? known)

/-- A generation that is begun now goes on through the calls that follow. -/
structure GoesOn (r : ModelRegistry) (during : List Call) : Prop where
  idle : r.state = .idle
  regenerating : ∀ first, first <+: during →
    (r.run (.beginRegeneration :: first)).state = .regenerating

/-- None of the calls finishes a generation. -/
def FinishesNone (r : ModelRegistry) (calls : List Call) : Prop :=
  ∀ first, first ++ [.finishRegeneration] <+: calls → (r.run first).state ≠ .regenerating

/-- Of calls from the empty registry, the last that finishes a generation closes the one that was
begun behind the first calls. -/
def LastFinished (calls before : List Call) : Prop :=
  ∃ during later, calls = before ++ .beginRegeneration :: during ++ .finishRegeneration :: later ∧
    (new.run before).GoesOn during ∧
    (new.run (before ++ .beginRegeneration :: during ++ [.finishRegeneration])).FinishesNone later

section

variable {r : ModelRegistry} {calls during later : List Call}

/-- Through a generation the models stay what they were when it began. -/
theorem GoesOn.entries (on : r.GoesOn during) :
    (r.run (.beginRegeneration :: during)).entries = r.entries := by
  obtain ⟨idle, regenerating⟩ := on
  induction during using List.reverseRecOn with
  | nil =>
    simp [run, perform, attempt, beginRegeneration, idle, Except.map]
  | append_singleton during c ih =>
    have before : (r.run (.beginRegeneration :: during)).state = .regenerating :=
      regenerating during (List.prefix_append ..)
    rw [← List.cons_append, run_concat, (effect_perform _ c).entries_of_regenerating before]
    exact ih fun first part => regenerating first (part.trans (List.prefix_append ..))

/-- A registry that is clean after calls which finish no generation was clean before, with the
same models. -/
theorem FinishesNone.clean (none : r.FinishesNone calls) (clean : (r.run calls).dirty = false) :
    r.dirty = false ∧ (r.run calls).entries = r.entries := by
  induction calls using List.reverseRecOn with
  | nil => exact ⟨clean, rfl⟩
  | append_singleton calls c ih =>
    rw [run_concat] at clean ⊢
    have other : ¬(c = .finishRegeneration ∧ (r.run calls).state = .regenerating) := by
      rintro ⟨rfl, regenerating⟩
      exact none calls (List.prefix_refl _) regenerating
    obtain ⟨before, same⟩ := (effect_perform _ c).clean other clean
    obtain ⟨start, entries⟩ := ih
      (fun first part => none first (part.trans (List.prefix_append ..))) before
    exact ⟨start, same.trans entries⟩

/-- Whenever lighting passes are generated, one call began that. -/
theorem exists_begun (is : (new.run calls).state = .regenerating) : ∃ before during,
    calls = before ++ .beginRegeneration :: during ∧ (new.run before).GoesOn during := by
  induction calls using List.reverseRecOn with
  | nil => cases is
  | append_singleton calls c ih =>
    have state := is
    rw [run_concat] at is
    rcases (effect_perform _ c).regenerating is with under | ⟨rfl, idle⟩
    · obtain ⟨before, during, rfl, on⟩ := ih under
      refine ⟨before, during ++ [c], by simp, on.idle, fun first part => ?_⟩
      rcases List.prefix_concat_iff.1 part with whole | part
      · rw [whole, ← run_append]
        simpa using state
      · exact on.regenerating first part
    · refine ⟨calls, [], rfl, idle, fun first part => ?_⟩
      rw [List.prefix_nil.1 part, ← run_append]
      exact state

/-- Among calls from the empty registry there is a last one that finishes a generation, or none
does. -/
theorem finishesNone_or_lastFinished (calls : List Call) :
    new.FinishesNone calls ∨ ∃ before, LastFinished calls before := by
  induction calls using List.reverseRecOn with
  | nil =>
    refine .inl fun first part => ?_
    simp at part
  | append_singleton calls c ih =>
    by_cases finishes : c = .finishRegeneration ∧ (new.run calls).state = .regenerating
    · obtain ⟨rfl, regenerating⟩ := finishes
      obtain ⟨before, during, rfl, on⟩ := exists_begun regenerating
      refine .inr ⟨before, during, [], by simp, on, fun first part => ?_⟩
      simp at part
    · -- A call that finishes nothing leaves what was finished before it the last.
      have still {r : ModelRegistry} {part : List Call} (none : r.FinishesNone part)
          (same : r.run part = new.run calls) : r.FinishesNone (part ++ [c]) := by
        intro first begins
        rcases List.prefix_concat_iff.1 begins with whole | within
        · obtain ⟨rfl, last⟩ := List.append_inj' whole rfl
          cases last
          rw [same]
          exact fun regenerating => finishes ⟨rfl, regenerating⟩
        · exact none first within
      rcases ih with none | ⟨before, during, later, rfl, on, none⟩
      · exact .inl (still none rfl)
      · refine .inr ⟨before, during, later ++ [c], by simp, on, still none ?_⟩
        rw [← run_append]
        simp

/-- A clean registry holds the models at the begin of the generation that was finished last. -/
theorem LastFinished.models {before : List Call} (last : LastFinished calls before)
    (clean : (new.run calls).dirty = false) :
    (new.run calls).models = (new.run before).models := by
  obtain ⟨during, later, rfl, on, none⟩ := last
  have whole : new.run (before ++ .beginRegeneration :: during ++ .finishRegeneration :: later) =
      (new.run (before ++ .beginRegeneration :: during ++ [.finishRegeneration])).run later := by
    rw [← run_append]
    simp
  have regenerating := on.regenerating during (List.prefix_refl _)
  have finished : (new.run (before ++ .beginRegeneration :: during ++
      [.finishRegeneration])).entries = (new.run before).entries := by
    rw [run_concat, run_append, (effect_perform _ _).entries_of_regenerating regenerating,
      on.entries]
  rw [whole] at clean ⊢
  exact congrArg OrderedMap.values ((none.clean clean).2.trans finished)

end

/-- **The registry keeps account.** After any calls from the empty registry:
- what a number was registered as first it stays, whatever calls follow;
- a call that is refused leaves the registry as it is;
- a registration is refused exactly while lighting passes are generated, and otherwise answers
  whether the number is new: a new one is taken in, and the registry is dirty; for a known one,
  with the same model or another, nothing changes;
- either no call finished a generation or there is a last one that did, and a clean registry has
  no models in the first case, and in the second those at the call that began the generation. -/
theorem keeps_account (calls : List Call) :
    (∀ id model, (new.run calls).get? id = some model →
      ∀ later, (new.run (calls ++ later)).get? id = some model) ∧
    (∀ c conflict, ((new.run calls).perform c).1 = .error conflict →
      ((new.run calls).perform c).2 = new.run calls) ∧
    (∀ model, (new.run calls).Registers model ((new.run calls).perform (.register model)).1
      ((new.run calls).perform (.register model)).2) ∧
    (new.FinishesNone calls ∨ ∃ before, LastFinished calls before) ∧
    ((new.run calls).dirty = false →
      (new.FinishesNone calls → (new.run calls).models = []) ∧
      ∀ before, LastFinished calls before →
        (new.run calls).models = (new.run before).models) := by
  refine ⟨fun id model known later => ?_, fun c conflict => perform_refused,
    registers_perform _, finishesNone_or_lastFinished calls, fun clean =>
      ⟨fun none => congrArg OrderedMap.values (none.clean clean).2,
        fun before last => last.models clean⟩⟩
  rw [run_append]
  exact run_get? known later

end SurfaceShading.ModelRegistry
