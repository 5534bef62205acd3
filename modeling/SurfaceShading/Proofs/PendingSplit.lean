/-
  Compiling what is pending, shader by shader. The shaders are built in the order in which they
  were registered, the shared one last, up to the first whose build fails
  (`Library.firstFailure?`, which runs the builds one after the other). That failure splits the
  list exactly (`Session.compilePending_splits`): what stands before it is built, it is known
  and not built, and what stands behind it is pending. No shader that was built is touched.
-/
import SurfaceShading.Proofs.Session

namespace SurfaceShading

namespace Library

variable {l l' : Library} {h : Host}

/-- What a build of an object comes to in a world, and the world that it leaves. -/
def buildOutcome (l : Library) (o : ShaderObject) (h : Host) : Except Error Unit × Host :=
  let ((answer, _), h) :=
    ((ShaderObject.build l.registry.models l.compileTarget).run.run o).run h
  (answer, h)

/-- The first of some shaders whose build fails, with its position, when they are built in order
and each in the world that the one before leaves. There is nothing to build for a name that is
not known. -/
def firstFailure? (l : Library) : List String → Host → Option (Nat × Error)
  | [], _ => none
  | name :: rest, h =>
    match (l.shader? name).map fun o => l.buildOutcome o h with
    | some (.error e, _) => some (0, e)
    | some (.ok _, h) => (l.firstFailure? rest h).map fun (k, e) => (k + 1, e)
    | none => (l.firstFailure? rest h).map fun (k, e) => (k + 1, e)

/-- Builds depend on the objects of the shaders, on the models that are registered and on where
sources go. -/
theorem firstFailure?_congr {names : List String} (registry : l'.registry = l.registry)
    (config : l'.config = l.config)
    (same : ∀ name ∈ names, l'.shaders.get? name = l.shaders.get? name) (h : Host) :
    l'.firstFailure? names h = l.firstFailure? names h := by
  have outcome : l'.buildOutcome = l.buildOutcome := by
    unfold buildOutcome compileTarget
    rw [registry, config]
  induction names generalizing h with
  | nil => rfl
  | cons name rest ih =>
    have shader : l'.shader? name = l.shader? name :=
      congrArg (Option.map ShaderEntry.object) (same name List.mem_cons_self)
    have later := ih fun other mem => same other (List.mem_cons_of_mem name mem)
    unfold firstFailure?
    rw [shader, outcome]
    split
    · rfl
    · rw [later]
    · rw [later]

/-- The build of a shader comes to what building its object does. -/
theorem buildShader_answers {name : String} {e : ShaderEntry}
    (there : l.shaders.get? name = some e) :
    Attempt.Ends (buildShader name) l h fun r _ h' => (r, h') = l.buildOutcome e.object h := by
  simp only [buildShader, Attempt.ends_bind, Attempt.ends_get, Attempt.after_ok]
  rw [ends_onShader there]
  have outcome : Attempt.Ends (ShaderObject.build l.registry.models l.compileTarget) e.object h
      fun r _ h' => (r, h') = l.buildOutcome e.object h := rfl
  refine outcome.mono fun r o h' is => ?_
  cases r with
  | ok _ => exact is
  | error _ => exact is

theorem buildAll_answers (names : List String) (l : Library) (h : Host) (sound : l.Sound h.device)
    (empty : l.pending = []) (nodup : names.Nodup) (waiting : l.Waiting names) :
    Attempt.Ends (buildAll names) l h fun r l' _ =>
      match l.firstFailure? names h with
      | none => r = .ok ()
      | some (k, e) => r = .error e ∧ k < names.length ∧ l'.pending = names.drop (k + 1) := by
  induction names generalizing l h with
  | nil => rfl
  | cons name rest ih =>
    obtain ⟨fresh, nodup⟩ := List.nodup_cons.1 nodup
    obtain ⟨e, there, unbuilt⟩ := waiting name List.mem_cons_self
    have free : name ∉ l.pending := by rw [empty]; exact List.not_mem_nil
    have found : l.shader? name = some e.object := by rw [shader?, there]; rfl
    unfold buildAll firstFailure?
    rw [Attempt.ends_bind, Attempt.ends_liftWork, Work.ends_run, found, Option.map_some]
    refine ((buildShader_answers there).and (buildShader_ends name sound free there)).mono ?_
    rintro r l₁ h₁ ⟨outcome, moves, same, others, _⟩
    rw [← outcome, Attempt.after_ok]
    cases r with
    | ok _ =>
      have untouched (other : String) (mem : other ∈ rest) :
          l₁.shaders.get? other = l.shaders.get? other :=
        others other fun eq => fresh (List.mem_singleton.1 eq ▸ mem)
      have waiting₁ : l₁.Waiting rest :=
        Waiting.congr (fun other mem => waiting other (List.mem_cons_of_mem name mem)) untouched
      have empty₁ : l₁.pending = [] := by rw [same]; exact empty
      have congr : l₁.firstFailure? rest h₁ = l.firstFailure? rest h₁ :=
        firstFailure?_congr (by rw [same]) (by rw [same]) untouched h₁
      refine (ih l₁ h₁ (moves.sound sound) empty₁ nodup waiting₁).mono fun r' l' h' rest => ?_
      rw [congr] at rest
      dsimp only
      cases failure : l.firstFailure? _ h₁ with
      | none =>
        rw [failure] at rest
        exact rest
      | some first =>
        rw [failure] at rest
        obtain ⟨answer, lt, pending⟩ := rest
        exact ⟨answer, Nat.succ_lt_succ lt, pending⟩
    | error e =>
      simp only [Attempt.ends_bind, Attempt.ends_modify, Attempt.after_ok, Attempt.ends_throw]
      exact ⟨trivial, Nat.succ_pos _, rfl⟩

/-! ## What is built in the end -/

theorem built?_isSome {name : String} : (l.built? name).isSome = true ↔
    ∃ e, l.shaders.get? name = some e ∧ e.built = true := by
  rw [Option.isSome_iff_exists]
  simp only [built?_eq_some]
  constructor
  · rintro ⟨_, e, there, built, _⟩
    exact ⟨e, there, built⟩
  · rintro ⟨e, there, built⟩
    exact ⟨e.object, e, there, built, rfl⟩

theorem built?_congr {name : String} (same : l'.shaders.get? name = l.shaders.get? name) :
    l'.built? name = l.built? name := by
  unfold built?
  rw [same]

theorem Waiting.built? {names : List String} (waiting : l.Waiting names) {name : String}
    (mem : name ∈ names) : l.built? name = none := by
  obtain ⟨e, there, unbuilt⟩ := waiting name mem
  refine built?_eq_none.2 fun e' there' => ?_
  cases there.symm.trans there'
  exact unbuilt

/-- Shaders that are finished come to those that were built before, if no other changes. -/
theorem AllFinished.built_iff {done : List String} {models : List ShadingModel}
    {options : SourceOptions} (finished : l'.AllFinished done models options)
    (others : ∀ name, name ∉ done → l'.built? name = l.built? name) (name : String) :
    (l'.built? name).isSome = true ↔ (l.built? name).isSome = true ∨ name ∈ done := by
  by_cases mem : name ∈ done
  · obtain ⟨e, there, finished⟩ := finished name mem
    exact iff_of_true (built?_isSome.2 ⟨e, there, finished.built⟩) (.inr mem)
  · rw [others name mem]
    exact ⟨.inl, fun is => is.resolve_right mem⟩

theorem Refreshed.built_iff {skipped : List String} {h h' : Host}
    (refreshed : Refreshed skipped l h l' h') (name : String) :
    (l'.built? name).isSome = true ↔ (l.built? name).isSome = true := by
  rw [built?_isSome, built?_isSome]
  constructor
  · rintro ⟨e', there', built⟩
    obtain ⟨e, there, same⟩ := refreshed.before there'
    exact ⟨e, there, same ▸ built⟩
  · rintro ⟨e, there, built⟩
    obtain ⟨e', there', same⟩ := refreshed.entries there
    exact ⟨e', there', same.trans built⟩

/-- Two ways to say where a list is split. -/
theorem take_of_split {names done rest : List String} {bad : String} {k : Nat}
    (eq : names = done ++ bad :: rest) (lt : k < names.length)
    (behind : rest = names.drop (k + 1)) : names.take k = done ∧ names[k]? = some bad := by
  have length : k = done.length := by
    have same := congrArg List.length behind
    rw [List.length_drop] at same
    rw [eq] at same lt
    simp only [List.length_append, List.length_cons] at same lt
    omega
  subst length
  rw [eq]
  simp

/-- How the list of the pending shaders is split by the first that fails. -/
structure SplitAt (names : List String) (k : Nat) (l l' : Library) : Prop where
  pending : l'.pending = names.drop (k + 1)
  built : ∀ name, (l'.built? name).isSome = true ↔
    (l.built? name).isSome = true ∨ name ∈ names.take k
  failed : ∃ name, names[k]? = some name ∧ (l'.shader? name).isSome = true ∧
    l'.built? name = none
  registry : l'.registry = l.registry
  kept : ∀ name o, l.built? name = some o → l'.built? name = some o

/-- What was built and is not among some shaders is what it was. -/
theorem BuiltAll.kept {names : List String} {h h' : Host} {r : Except Error Unit}
    (all : BuiltAll names l h r l' h') (waiting : l.Waiting names) (name : String)
    (o : ShaderObject) (built : l.built? name = some o) : l'.built? name = some o := by
  have notMem : name ∉ names := fun mem => by
    rw [waiting.built? mem] at built
    cases built
  rw [built?_congr (all.others name notMem)]
  exact built

theorem BuiltAll.splitAt {names : List String} {h h' : Host} {e : Error} {k : Nat}
    (all : BuiltAll names l h (.error e) l' h') (waiting : l.Waiting names)
    (lt : k < names.length) (pending : l'.pending = names.drop (k + 1)) :
    SplitAt names k l l' := by
  have registry : l'.registry = l.registry := by rw [all.same]
  cases all.ends with
  | failed done bad rest eq behind finished waits untouched =>
    obtain ⟨front, at_k⟩ := take_of_split eq lt (behind.symm.trans pending)
    have others : ∀ name, name ∉ done → l'.built? name = l.built? name := by
      intro name notDone
      by_cases mem : name ∈ names
      · rw [eq] at mem
        rcases List.mem_cons.1 ((List.mem_append.1 mem).resolve_left notDone) with rfl | mem
        · rw [waits.built? List.mem_cons_self]
          exact (waiting.built? (eq ▸ List.mem_append_right done List.mem_cons_self)).symm
        · exact built?_congr (untouched name mem)
      · exact built?_congr (all.others name mem)
    obtain ⟨e, there, _⟩ := waits bad List.mem_cons_self
    refine ⟨pending, fun name => ?_, ⟨bad, at_k, ?_, waits.built? List.mem_cons_self⟩, registry,
      all.kept waiting⟩
    · rw [front]
      exact finished.built_iff others name
    · rw [shader?, there]
      rfl

theorem compilePending_splits_ends (l : Library) (h : Host) (sound : l.Sound h.device)
    (idle : l.registry.state = .idle) :
    Attempt.Ends compilePending l h fun r l' _ =>
      match l.firstFailure? l.pendingOrder h with
      | none => l'.pending = [] ∧
          (∀ name, (l'.built? name).isSome = true ↔
            (l.built? name).isSome = true ∨ name ∈ l.pendingOrder) ∧
          (r = .ok () → l'.registry.dirty = false)
      | some (k, e) => r = .error e ∧ SplitAt l.pendingOrder k l l' := by
  have emptied : Move l h l.unqueued h := .queue .nil fun _ mem => absurd mem List.not_mem_nil
  have waiting : l.unqueued.Waiting l.pendingOrder :=
    fun name mem => sound.pending_waits name (mem_buildOrder.1 mem)
  have nodup : l.pendingOrder.Nodup := nodup_buildOrder sound.pending_nodup
  have registry : l.unqueued.registry = l.registry := rfl
  have failure : l.unqueued.firstFailure? l.pendingOrder h = l.firstFailure? l.pendingOrder h :=
    firstFailure?_congr registry rfl (fun _ _ => rfl) h
  unfold compilePending
  simp only [Attempt.ends_bind, Attempt.ends_get, Attempt.after_ok, Attempt.ends_set]
  refine ((buildAll_ends l.pendingOrder l.unqueued h (emptied.sound sound) rfl nodup waiting).and
    (buildAll_answers l.pendingOrder l.unqueued h (emptied.sound sound) rfl nodup
      waiting)).mono ?_
  rintro r l₁ h₁ ⟨all, answer⟩
  rw [failure] at answer
  cases first : l.firstFailure? l.pendingOrder h with
  | some first =>
    rw [first] at answer
    obtain ⟨rfl, lt, pending⟩ := answer
    exact ⟨rfl, { all.splitAt waiting lt pending with }⟩
  | none =>
    rw [first] at answer
    cases answer
    obtain ⟨empty, finished⟩ := all.allFinished
    have built := finished.built_iff fun name notMem => built?_congr (all.others name notMem)
    have idle₁ : l₁.registry.state = .idle := by rw [all.same]; exact idle
    rw [Attempt.after_ok]
    simp only [Attempt.ends_bind, Attempt.ends_get, Attempt.after_ok]
    split
    · next dirty =>
      have refreshes := regenerate_refreshes l.pendingOrder l₁ h₁
        ((emptied.moves.trans all.moves).sound sound) idle₁ all.litAt dirty
      have finish {l' : Library} {h' : Host}
          (refreshed : Refreshed l.pendingOrder l₁ h₁ l' h') : l'.pending = [] ∧
          ∀ name, (l'.built? name).isSome = true ↔
            (l.built? name).isSome = true ∨ name ∈ l.pendingOrder := by
        refine ⟨by rw [refreshed.same]; exact empty, fun name => ?_⟩
        rw [refreshed.built_iff]
        exact built name
      refine refreshes.bind ?_ ?_
      · intro n l' h' ⟨refreshed, clean⟩
        obtain ⟨empty', built'⟩ := finish refreshed
        exact ⟨empty', built', fun _ => (clean n rfl).1⟩
      · intro e l' h' ⟨refreshed, _⟩
        obtain ⟨empty', built'⟩ := finish refreshed
        exact ⟨empty', built', nofun⟩
    · next notDirty => exact ⟨empty, built, fun _ => Bool.eq_false_iff.2 notDirty⟩

/-- The shared shader is moved to the end. -/
theorem buildOrder_eq {shared : String} {names : List String} (nodup : names.Nodup) :
    buildOrder shared names =
      names.erase shared ++ if shared ∈ names then [shared] else [] := by
  have front : names.filter (· ≠ shared) = names.erase shared := by
    rw [nodup.erase_eq_filter]
    exact List.filter_congr fun name _ => Bool.eq_iff_iff.2 (by simp)
  have last : names.filter (· = shared) = if shared ∈ names then [shared] else [] := by
    rw [List.filter_eq, nodup.count]
    split <;> rfl
  rw [buildOrder, front, last]

end Library

namespace Session

/-- The pending shaders are built in the order of the pending list, the shared one last. If none
fails, none is pending any more, exactly they are built besides those that were, and an answer
without an error leaves the registry clean. Otherwise the answer is the error of the first that
fails: exactly those behind it are pending, exactly those before it are built besides those that
were, it is known and not built, the registry is as it was, and so is every shader that was
built. -/
theorem compilePending_splits (config : Config) (texts : OrderedMap String String)
    (loader : Loader) (disk : Disk) (ops : List Operation) :
    let s := (start config texts loader disk).run ops
    let l := s.library
    let l' := (s.step .compilePending).library
    let shared := l.config.sharedShader
    let order := l.pending.erase shared ++ if shared ∈ l.pending then [shared] else []
    match l.firstFailure? order s.host with
    | none => l'.pending = [] ∧
        (∀ name, (l'.built? name).isSome = true ↔
          (l.built? name).isSome = true ∨ name ∈ order) ∧
        ((s.perform .compilePending).1 = .ok () → l'.registry.dirty = false)
    | some (k, e) => (s.perform .compilePending).1 = .error e ∧ Library.SplitAt order k l l' := by
  intro s l l' shared order
  have sound : s.Sound := run_sound (start_sound config texts loader disk) ops
  have same : l.pendingOrder = order := Library.buildOrder_eq sound.library.pending_nodup
  have splits := (s.ends_perform .compilePending).1
    (Library.compilePending_splits_ends l s.host sound.library sound.idle)
  rw [same] at splits
  exact splits

end Session

end SurfaceShading
