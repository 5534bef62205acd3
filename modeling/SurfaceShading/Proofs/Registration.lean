/-
  Registering shaders in order. A registration goes up to the first name that it refuses: one
  without a source, one whose text is no shader or cannot be completed, or one whose constant
  buffer is above the limit (`Library.Refuses`). What it leaves is what the names before that
  one leave on their own (`Session.registers_up_to_refusal`): the refused name is read and
  reported, and nothing else is done for it.
-/
import SurfaceShading.Proofs.LoadOrder

namespace SurfaceShading

/-- The world is as it was, apart from what was reported. -/
def Host.OnlyReports (h h' : Host) : Prop := h' = { h with events := h'.events }

namespace Host.OnlyReports

instance : Std.Refl OnlyReports := ⟨fun _ => rfl⟩

instance : Trans OnlyReports OnlyReports OnlyReports := ⟨fun first second => by
  unfold OnlyReports at *
  rw [second, first]⟩

theorem report (event : Event) : HostM.Keeps OnlyReports (report event) := .modify fun _ => rfl

theorem reportAll (events : List Event) : HostM.Keeps OnlyReports (reportAll events) :=
  .modify fun _ => rfl

end Host.OnlyReports

/-- What some work comes to, whatever is asked about it. -/
theorem Attempt.Ends.outcome {σ α : Type} (x : Attempt σ α) (s : σ) (h : Host) :
    Ends x s h fun r s' h' => ∀ post, Ends x s h post ↔ post r s' h' := fun _ => Iff.rfl

/-- What is made of an answer of some work. -/
theorem Attempt.ends_map {σ α β : Type} {s : σ} {h : Host} (x : Attempt σ α) (f : α → β)
    {post : Except Error β → σ → Host → Prop} :
    Ends (x >>= fun a => pure (f a)) s h post ↔ Ends x s h fun r s' h' => post (r.map f) s' h' := by
  rw [ends_bind]
  constructor
  · exact fun ends => ends.mono fun r _ _ held => by cases r <;> exact held
  · exact fun ends => ends.mono fun r _ _ held => by cases r <;> exact held

namespace Library

variable {l l' : Library} {h h' : Host} {name : String}

/-- Why a name that is not known yet cannot be registered: it has no source that can be read, its
text does not declare a shader or not one that can be completed, or the constant buffer of the
shader is above the limit. -/
inductive Refuses (l : Library) (disk : Disk) (name : String) : Error → Prop where
  | unread {e : SourceError} (unknown : l.shader? name = none)
      (read : l.sources.read disk name = .error e) : Refuses l disk name (.ofSource e)
  | malformed {text : String} {e : ParseError} (unknown : l.shader? name = none)
      (read : l.sources.read disk name = .ok text)
      (parsed : (Definition.parseComplete text l.config.sharedShader
        (l.sources.read disk l.config.sharedShader)).result = .error e) :
      Refuses l disk name (.parse name e)
  | tooLarge {definition : Definition} (unknown : l.shader? name = none)
      (declared : l.Declares disk name definition)
      (above : l.config.bufferLimit < (Layout.ofProperties definition.properties).size) :
      Refuses l disk name (.layout definition.name
        (Layout.ofProperties definition.properties).size l.config.bufferLimit)

theorem Refuses.unknown {disk : Disk} {e : Error} (refuses : l.Refuses disk name e) :
    l.shader? name = none := by
  cases refuses <;> assumption

theorem turned_turned {state state' : RegistryState} (is : l.registry.state = state) :
    (l.turned state').turned state = l := by
  subst is
  rfl

theorem Refuses.turned {disk : Disk} {e : Error} (refuses : l.Refuses disk name e)
    (state : RegistryState) : (l.turned state).Refuses disk name e := by
  cases refuses with
  | unread unknown read => exact .unread unknown read
  | malformed unknown read parsed => exact .malformed unknown read parsed
  | tooLarge unknown declared above => exact .tooLarge unknown declared above

/-- Whether the registry is open makes no difference. -/
theorem refuses_turned {disk : Disk} {e : Error} (state : RegistryState) :
    (l.turned state).Refuses disk name e ↔ l.Refuses disk name e := by
  constructor
  · intro refuses
    have back := refuses.turned l.registry.state
    rwa [turned_turned rfl] at back
  · intro refuses
    exact refuses.turned state

/-- A text that cannot be had is the reason. -/
theorem refuses_of_unread {disk : Disk} {e : SourceError} (unknown : l.shader? name = none)
    (unread : l.sources.read disk name = .error e) (error : Error) :
    l.Refuses disk name error ↔ .ofSource e = error := by
  constructor
  · intro refuses
    cases refuses with
    | unread _ read => cases unread.symm.trans read; rfl
    | malformed _ read _ => cases unread.symm.trans read
    | tooLarge _ declared _ =>
      obtain ⟨text, read, _⟩ := declared
      cases unread.symm.trans read
  · rintro rfl
    exact .unread unknown unread

/-- A text that is no shader is the reason. -/
theorem refuses_of_malformed {disk : Disk} {text : String} {e : ParseError}
    (unknown : l.shader? name = none) (found : l.sources.read disk name = .ok text)
    (failed : (Definition.parseComplete text l.config.sharedShader
      (l.sources.read disk l.config.sharedShader)).result = .error e) (error : Error) :
    l.Refuses disk name error ↔ .parse name e = error := by
  constructor
  · intro refuses
    cases refuses with
    | unread _ read => cases found.symm.trans read
    | malformed _ read parsed =>
      cases found.symm.trans read
      cases failed.symm.trans parsed
      rfl
    | tooLarge _ declared _ =>
      obtain ⟨text', read, parsed⟩ := declared
      cases found.symm.trans read
      cases failed.symm.trans parsed
  · rintro rfl
    exact .malformed unknown found failed

/-- A shader that is declared is refused for the size of its constant buffer alone. -/
theorem refuses_of_declares {disk : Disk} {definition : Definition}
    (unknown : l.shader? name = none) (declared : l.Declares disk name definition)
    (error : Error) :
    l.Refuses disk name error ↔
      l.config.bufferLimit < (Layout.ofProperties definition.properties).size ∧
      .layout definition.name (Layout.ofProperties definition.properties).size
        l.config.bufferLimit = error := by
  obtain ⟨text, found, complete⟩ := declared
  constructor
  · intro refuses
    cases refuses with
    | unread _ read => cases found.symm.trans read
    | malformed _ read parsed =>
      cases found.symm.trans read
      cases complete.symm.trans parsed
    | tooLarge _ declared' above =>
      obtain ⟨text', read, parsed⟩ := declared'
      cases found.symm.trans read
      cases complete.symm.trans parsed
      exact ⟨above, rfl⟩
  · rintro ⟨above, rfl⟩
    exact .tooLarge unknown ⟨text, found, complete⟩ above

/-! ## One name -/

/-- Reading a shader reports and does nothing else, and when it fails that is the reason to
refuse the name. -/
theorem readDefinition_answers (name : String) (l : Library) (h : Host)
    (unknown : l.shader? name = none) :
    Attempt.Ends (readDefinition name) l h fun r l' h' => l' = l ∧ h.OnlyReports h' ∧
      match r with
      | .ok definition => l.Declares h.disk name definition
      | .error e => ∀ error, l.Refuses h.disk name error ↔ e = error := by
  simp only [readDefinition, Attempt.ends_bind, Attempt.ends_get, Attempt.after_ok,
    Attempt.ends_getHost]
  split
  · next e unread =>
    have nothing : h.OnlyReports h := Std.Refl.refl h
    exact ⟨rfl, nothing, refuses_of_unread unknown unread⟩
  · next text found =>
    simp only [Attempt.ends_bind, Attempt.ends_liftHost]
    refine (Host.OnlyReports.reportAll _ h).mono fun _ h₁ first => ?_
    rw [Attempt.after_ok]
    split
    · next e failed =>
      simp only [Attempt.ends_bind, Attempt.ends_liftHost]
      refine (Host.OnlyReports.report _ h₁).mono fun _ h₂ second => ?_
      have both : h.OnlyReports h₂ := Trans.trans first second
      exact ⟨rfl, both, refuses_of_malformed unknown found failed⟩
    · next definition complete => exact ⟨rfl, first, text, found, complete⟩

/-- Taking in a shader fails exactly if its constant buffer is above the limit, and then nothing
but reports was made. -/
theorem addShader_answers (name : String) (definition : Definition)
    (isOpen : l.registry.state ≠ .regenerating) :
    Attempt.Ends (addShader name definition) l h fun r l' h' =>
      match r with
      | .ok () => ¬ l.config.bufferLimit < (Layout.ofProperties definition.properties).size
      | .error e => l' = l ∧ h.OnlyReports h' ∧
          l.config.bufferLimit < (Layout.ofProperties definition.properties).size ∧
          e = .layout definition.name (Layout.ofProperties definition.properties).size
            l.config.bufferLimit := by
  unfold addShader
  rw [Attempt.ends_bind, Attempt.ends_get, Attempt.after_ok]
  refine .afterKeeping (Host.OnlyReports.report _) fun h₁ first => ?_
  simp only [Attempt.ends_bind, Attempt.ends_liftHost]
  refine (Host.OnlyReports.reportAll _ h₁).mono fun _ h₂ second => ?_
  simp only [Attempt.after_ok, Attempt.ends_bind, Attempt.ends_ofExcept, Shader.ofDefinition]
  by_cases above : l.config.bufferLimit < (Layout.ofProperties definition.properties).size
  · rw [if_pos above]
    exact ⟨rfl, Trans.trans first second, above, rfl⟩
  · rw [if_neg above, Attempt.after_ok]
    -- All that is left to fail is the registry, which is open.
    cases definition.model with
    | some model =>
      refine (registerModel_ends model isOpen).bind ?_ ?_
      · exact fun _ _ _ _ => .afterHost fun _ => above
      · exact fun e _ _ ends => nomatch ends.1
    | none => exact .afterHost fun _ => above

/-- A name that is refused leaves the library as it was and the world but for reports. -/
theorem ensureShader_answers (name : String) (isOpen : l.registry.state ≠ .regenerating) :
    Attempt.Ends (ensureShader name) l h fun r l' h' =>
      (∀ e, r = .error e ↔ l.Refuses h.disk name e) ∧
      ∀ e, r = .error e → l' = l ∧ h.OnlyReports h' := by
  unfold ensureShader
  rw [Attempt.ends_bind, Attempt.ends_get, Attempt.after_ok]
  split
  · next isNone =>
    have unknown : l.shader? name = none := Option.isNone_iff_eq_none.1 isNone
    refine (readDefinition_answers name l h unknown).bind ?_ ?_
    · rintro definition l₁ h₁ ⟨rfl, first, declared⟩
      refine (addShader_answers name definition isOpen).mono fun r l' h' answer => ?_
      cases r with
      | ok _ =>
        refine ⟨fun e => ?_, nofun⟩
        rw [refuses_of_declares unknown declared]
        exact iff_of_false nofun fun is => answer is.1
      | error e =>
        obtain ⟨same, second, above, layout⟩ := answer
        refine ⟨fun e' => ?_, fun _ _ => ⟨same, Trans.trans first second⟩⟩
        rw [refuses_of_declares unknown declared, and_iff_right above, ← layout,
          Except.error.injEq]
    · rintro e l₁ h₁ ⟨rfl, reported, refuses⟩
      refine ⟨fun e' => ?_, fun _ _ => ⟨rfl, reported⟩⟩
      rw [refuses, Except.error.injEq]
  · next known =>
    refine ⟨fun e => iff_of_false nofun fun refuses => ?_, nofun⟩
    exact known (Option.isNone_iff_eq_none.2 refuses.unknown)

/-! ## Names in order -/

/-- While the registry is open, it stays as it is. -/
theorem ensureShaders_state (names : List String) (isOpen : l.registry.state ≠ .regenerating) :
    Attempt.Ends (ensureShaders names) l h fun _ l' _ => l'.registry.state = l.registry.state :=
  (ensureShaders_ends names l h isOpen).mono fun _ _ _ ends => ends.1.state

theorem ensureShaders_cons (name : String) (rest : List String) :
    ensureShaders (name :: rest) = (do
      ensureShader name
      pure ((← ensureShaders rest) + 1)) := rfl

theorem ensureShaders_append (before rest : List String) :
    ensureShaders (before ++ rest) = (do
      let count ← ensureShaders before
      let more ← ensureShaders rest
      pure (more + count)) := by
  induction before with
  | nil => simp [ensureShaders]
  | cons name before ih => simp [ensureShaders, ih, Nat.add_assoc]

/-- A registration is that of the names one after the other, with the registry open meanwhile. -/
theorem ends_registerShaders (names : List String) (idle : l.registry.state = .idle)
    {post : Except Error Nat → Library → Host → Prop} :
    Attempt.Ends (registerShaders names) l h post ↔
      Attempt.Ends (ensureShaders names) (l.turned .registering) h fun r l' h' =>
        post r (l'.turned .idle) h' := by
  simp only [registerShaders, onRegistry, ModelRegistry.beginRegistration, idle,
    Attempt.ends_bind, Attempt.ends_get, Attempt.after_ok, Attempt.ends_modify,
    Attempt.ends_liftWork, Work.ends_run, Attempt.ends_ofExcept]
  have isOpen : RegistryState.registering ≠ .regenerating := by decide
  have closed : Attempt.Ends (ensureShaders names) (l.turned .registering) h fun _ l' _ =>
      { l' with registry := l'.registry.endRegistration } = l'.turned .idle := by
    refine (ensureShaders_state names isOpen).mono fun _ l' _ state => ?_
    have state : l'.registry.state = .registering := state
    rw [ModelRegistry.endRegistration, if_pos state]
    rfl
  constructor
  · intro ends
    refine (closed.and ends).mono ?_
    rintro _ _ _ ⟨same, held⟩
    exact same ▸ held
  · intro ends
    refine (closed.and ends).mono ?_
    rintro _ _ _ ⟨same, held⟩
    exact same ▸ held

/-- After names that went well, a registration goes on as one of the other names. -/
theorem registerShaders_append (before rest : List String) (idle : l.registry.state = .idle) :
    Attempt.Ends (registerShaders before) l h fun r₁ l₁ h₁ => ∀ n post, r₁ = .ok n →
      (Attempt.Ends (registerShaders (before ++ rest)) l h post ↔
        Attempt.Ends (registerShaders rest) l₁ h₁ fun r l' h' => post (r.map (· + n)) l' h') := by
  have isOpen : RegistryState.registering ≠ .regenerating := by decide
  rw [ends_registerShaders before idle]
  refine ((ensureShaders_state before isOpen).and (.outcome _ _ _)).mono ?_
  rintro _ l₁ h₁ ⟨state, done⟩ n post rfl
  have opened : (l₁.turned .idle).turned .registering = l₁ := turned_turned state
  rw [ends_registerShaders _ idle, ensureShaders_append, Attempt.ends_bind, done,
    Attempt.after_ok, Attempt.ends_map, ends_registerShaders rest rfl, opened]

/-- A name that is refused ends a registration before anything was done. -/
theorem registerShaders_refused {name : String} {e : Error} (rest : List String)
    (idle : l.registry.state = .idle) (refuses : l.Refuses h.disk name e) :
    Attempt.Ends (registerShaders (name :: rest)) l h fun r l' h' =>
      r = .error e ∧ l' = l ∧ h.OnlyReports h' := by
  have isOpen : RegistryState.registering ≠ .regenerating := by decide
  rw [ends_registerShaders _ idle, ensureShaders_cons]
  refine (ensureShader_answers name isOpen).bind ?_ ?_
  · rintro _ l₁ h₁ ⟨answer, _⟩
    cases (answer e).2 ((refuses_turned .registering).2 refuses)
  · rintro e' l₁ h₁ ⟨answer, unchanged⟩
    obtain ⟨same, reported⟩ := unchanged e' rfl
    cases (answer e).2 ((refuses_turned .registering).2 refuses)
    refine ⟨rfl, ?_, reported⟩
    rw [same]
    exact turned_turned idle

/-- A name that is registered on its own fails only if it is refused. -/
theorem registerShaders_single (name : String) (idle : l.registry.state = .idle) :
    Attempt.Ends (registerShaders [name]) l h fun r _ _ =>
      ∀ e, r = .error e → l.Refuses h.disk name e := by
  have isOpen : RegistryState.registering ≠ .regenerating := by decide
  rw [ends_registerShaders _ idle, ensureShaders_cons]
  refine (ensureShader_answers name isOpen).bind ?_ ?_
  · intro _ l₁ h₁ _ e eq
    cases eq
  · rintro e' l₁ h₁ ⟨answer, _⟩ e eq
    cases eq
    exact (refuses_turned .registering).1 ((answer e').1 rfl)

end Library

namespace Session

variable {s : Session}

theorem ends_registerShaders (s : Session) (names : List String)
    (post : Except Error Unit → Library → Host → Prop) :
    Attempt.Ends (Library.registerShaders names) s.library s.host
        (fun r l' h' => post (r.map fun _ => ()) l' h') ↔
      post (s.perform (.registerShaders names)).1 (s.step (.registerShaders names)).library
        (s.step (.registerShaders names)).host :=
  (Attempt.ends_map _ fun _ => ()).symm.trans (s.ends_perform (.registerShaders names))

/-- After names that went well, a registration goes on as one of the other names. -/
theorem perform_append (idle : s.library.registry.state = .idle) (before rest : List String)
    (ok : (s.perform (.registerShaders before)).1 = .ok ()) :
    s.perform (.registerShaders (before ++ rest)) =
      (s.step (.registerShaders before)).perform (.registerShaders rest) := by
  have goesOn := (s.ends_registerShaders before fun r₁ l₁ h₁ => r₁ = .ok () →
    ∃ n : Nat, ∀ post, Attempt.Ends (Library.registerShaders (before ++ rest)) s.library s.host
      post ↔ Attempt.Ends (Library.registerShaders rest) l₁ h₁ fun r l' h' =>
        post (r.map (· + n)) l' h').1 ?_ ok
  · obtain ⟨n, goesOn⟩ := goesOn
    let target := (s.step (.registerShaders before)).perform (.registerShaders rest)
    refine (s.ends_registerShaders (before ++ rest) fun r l' h' =>
      (r, ⟨l', h'⟩) = target).1 ((goesOn _).2 ?_)
    refine (((s.step (.registerShaders before)).ends_registerShaders rest fun r l' h' =>
      (r, ⟨l', h'⟩) = target).2 rfl).mono fun r l' h' is => ?_
    cases r <;> exact is
  · refine (Library.registerShaders_append before rest idle).mono fun r l₁ h₁ goesOn is => ?_
    cases r with
    | ok n => exact ⟨n, fun post => goesOn n post rfl⟩
    | error e => cases is

/-- A name that is refused ends a registration before anything was done. -/
theorem perform_refused (idle : s.library.registry.state = .idle) {name : String} {e : Error}
    (rest : List String) (refuses : s.library.Refuses s.host.disk name e) :
    (s.perform (.registerShaders (name :: rest))).1 = .error e ∧
      (s.step (.registerShaders (name :: rest))).library = s.library ∧
      s.host.OnlyReports (s.step (.registerShaders (name :: rest))).host := by
  refine (s.ends_registerShaders (name :: rest) fun r l' h' =>
    r = .error e ∧ l' = s.library ∧ s.host.OnlyReports h').1 ?_
  refine (Library.registerShaders_refused rest idle refuses).mono ?_
  rintro _ l' h' ⟨rfl, unchanged⟩
  exact ⟨rfl, unchanged⟩

theorem perform_nil (idle : s.library.registry.state = .idle) :
    s.perform (.registerShaders []) = (.ok (), s) := by
  refine (s.ends_registerShaders [] fun r l' h' => (r, ⟨l', h'⟩) = (.ok (), s)).1 ?_
  rw [Library.ends_registerShaders [] idle]
  show (Except.ok (), Session.mk ((s.library.turned .registering).turned .idle) s.host) =
    (.ok (), s)
  rw [Library.turned_turned idle]

/-- Once the names of a list were registered, and none failed, the next one is refused. -/
def RefusesAfter (s : Session) (before : List String) (name : String) (e : Error) : Prop :=
  (s.perform (.registerShaders before)).1 = .ok () ∧
    (s.step (.registerShaders before)).library.Refuses
      (s.step (.registerShaders before)).host.disk name e

theorem RefusesAfter.here (idle : s.library.registry.state = .idle) {name : String} {e : Error}
    (refuses : s.library.Refuses s.host.disk name e) : s.RefusesAfter [] name e := by
  unfold RefusesAfter step
  rw [perform_nil idle]
  exact ⟨rfl, refuses⟩

theorem RefusesAfter.cons (idle : s.library.registry.state = .idle) {first name : String}
    {before : List String} {e : Error} (ok : (s.perform (.registerShaders [first])).1 = .ok ())
    (later : (s.step (.registerShaders [first])).RefusesAfter before name e) :
    s.RefusesAfter (first :: before) name e := by
  have goesOn := perform_append idle [first] before ok
  unfold RefusesAfter at later ⊢
  rw [step, ← List.singleton_append, goesOn]
  exact later

/-- A registration that fails does so at a name. -/
theorem exists_refused (sound : s.Sound) (names : List String) {e : Error}
    (failed : (s.perform (.registerShaders names)).1 = .error e) :
    ∃ before name after, names = before ++ name :: after ∧ s.RefusesAfter before name e := by
  induction names generalizing s with
  | nil =>
    rw [perform_nil sound.idle] at failed
    cases failed
  | cons name rest ih =>
    have single : ∀ e, (s.perform (.registerShaders [name])).1 = .error e →
        s.library.Refuses s.host.disk name e := by
      refine (s.ends_registerShaders [name] fun r _ _ => ∀ e, r = .error e →
        s.library.Refuses s.host.disk name e).1 ?_
      refine (Library.registerShaders_single name sound.idle).mono fun r _ _ refuses e is => ?_
      cases r with
      | error e' => cases is; exact refuses e rfl
      | ok _ => cases is
    cases answer : (s.perform (.registerShaders [name])).1 with
    | error e' =>
      have refuses := single e' answer
      have same := (perform_refused sound.idle rest refuses).1
      cases failed.symm.trans same
      exact ⟨[], name, rest, rfl, .here sound.idle refuses⟩
    | ok _ =>
      have goesOn := perform_append sound.idle [name] rest answer
      rw [List.singleton_append] at goesOn
      rw [goesOn] at failed
      obtain ⟨before, bad, after, eq, later⟩ := ih (step_sound sound _) failed
      exact ⟨name :: before, bad, after, by rw [eq]; rfl, .cons sound.idle answer later⟩

/-- Names are registered one after the other, up to the first that is refused: one without a
source, one whose text is no shader or cannot be completed, or one whose constant buffer is
above the limit. What is left then is what the names before it leave on their own, the library
as a whole and the world but for reports. The refused name is not in the library, it is not
pending, and the registry is idle again. -/
theorem registers_up_to_refusal (config : Config) (texts : OrderedMap String String)
    (loader : Loader) (disk : Disk) (ops : List Operation) (names : List String) :
    let s := (start config texts loader disk).run ops
    let all := s.step (.registerShaders names)
    all.library.registry.state = .idle ∧
    (∀ before rest, names = before ++ rest → (s.perform (.registerShaders before)).1 = .ok () →
      s.perform (.registerShaders names) =
        (s.step (.registerShaders before)).perform (.registerShaders rest)) ∧
    (∀ e, (s.perform (.registerShaders names)).1 = .error e ↔
      ∃ before name after, names = before ++ name :: after ∧ s.RefusesAfter before name e) ∧
    ∀ before name after e, names = before ++ name :: after → s.RefusesAfter before name e →
      let first := s.step (.registerShaders before)
      all.library = first.library ∧ first.host.OnlyReports all.host ∧
      all.library.shader? name = none ∧ name ∉ all.library.pending := by
  intro s all
  have sound : s.Sound := run_sound (start_sound config texts loader disk) ops
  have soundAll : all.Sound := step_sound sound (.registerShaders names)
  have stops {before after : List String} {name : String} {e : Error}
      (eq : names = before ++ name :: after) (refused : s.RefusesAfter before name e) :
      (s.perform (.registerShaders names)).1 = .error e ∧
        all.library = (s.step (.registerShaders before)).library ∧
        (s.step (.registerShaders before)).host.OnlyReports all.host := by
    obtain ⟨ok, refuses⟩ := refused
    have goesOn := perform_append sound.idle before (name :: after) ok
    rw [← eq] at goesOn
    have idle := (step_sound sound (.registerShaders before)).idle
    have last : all = (s.step (.registerShaders before)).step (.registerShaders (name :: after)) :=
      congrArg Prod.snd goesOn
    rw [goesOn, last]
    exact perform_refused idle after refuses
  refine ⟨soundAll.idle, ?_, fun e => ⟨exists_refused sound names, ?_⟩, ?_⟩
  · rintro before rest rfl ok
    exact perform_append sound.idle before rest ok
  · rintro ⟨before, name, after, eq, refused⟩
    exact (stops eq refused).1
  · intro before name after e eq refused
    obtain ⟨_, same, reported⟩ := stops eq refused
    have unknown : all.library.shader? name = none := by
      rw [same]
      exact refused.2.unknown
    refine ⟨same, reported, unknown, fun mem => ?_⟩
    obtain ⟨e, there, _⟩ := soundAll.library.pending_waits name mem
    rw [Library.shader?, there] at unknown
    cases unknown

/-- A name without a source, between two shaders: the first is registered, and nothing else
happens. -/
theorem ghost_refused :
    twoShaders.RefusesAfter ["Toon"] "Ghost" (.ofSource (.notFound "Ghost")) ∧
    (twoShaders.perform (.registerShaders ["Toon", "Ghost", "Screen"])).1 =
      .error (.ofSource (.notFound "Ghost")) ∧
    (twoShaders.step (.registerShaders ["Toon", "Ghost", "Screen"])).library =
      (twoShaders.step (.registerShaders ["Toon"])).library := by
  have ok : (twoShaders.perform (.registerShaders ["Toon"])).1 = .ok () :=
    step_ok (start_sound ..) twoShaders_willing (.register ["Toon"])
      fun name mem => twoShaders_offers name (.inr (List.mem_singleton.1 mem))
  have refused : twoShaders.RefusesAfter ["Toon"] "Ghost" (.ofSource (.notFound "Ghost")) := by
    obtain ⟨gathered, others⟩ := (ends_registerShaders twoShaders ["Toon"] fun _ l' h' =>
      Library.Gathered twoShaders.library twoShaders.host l' h' ∧
        Library.SameBut ["Toon"] twoShaders.library l').1
      ((Library.registerShaders_ends ["Toon"] twoShaders.library twoShaders.host rfl).mono
        fun _ _ _ ⟨gathered, others, _⟩ => ⟨gathered, others⟩)
    refine ⟨ok, .unread ?_ ?_⟩
    · rw [Library.shader?, others "Ghost" (by decide)]
      rfl
    · rw [gathered.sources]
      rfl
  obtain ⟨_, _, fails, stays⟩ := registers_up_to_refusal .standard twoTexts (.stub [] []) .empty []
    ["Toon", "Ghost", "Screen"]
  have split : ["Toon", "Ghost", "Screen"] = ["Toon"] ++ "Ghost" :: ["Screen"] := rfl
  exact ⟨refused, (fails _).2 ⟨_, _, _, split, refused⟩, (stays _ _ _ _ split refused).1⟩

end Session

end SurfaceShading
