/-
  What a piece of work comes to. `Ends x s h post` says that `x`, started from the value `s` in
  the world `h`, ends with an outcome, a value and a world that satisfy `post`. Work never gets
  stuck and has one outcome, so the rules below are equivalences: unfolding a definition and
  rewriting with them follows the program from its first step to its last.

  For an attempt, an error ends the rest of the work but keeps what was done so far
  (`Attempt.After`); nothing here undoes a step.
-/
import SurfaceShading.Host

namespace SurfaceShading

variable {σ α β : Type}

/-- From a world, `m` ends with an answer and a world that satisfy `post`. -/
def HostM.Ends (m : HostM α) (h : Host) (post : α → Host → Prop) : Prop :=
  post (m h).1 (m h).2

/-- From a value and a world, `w` ends with an answer, a value and a world that satisfy
`post`. -/
def Work.Ends (w : Work σ α) (s : σ) (h : Host) (post : α → σ → Host → Prop) : Prop :=
  HostM.Ends (w s) h fun r h => post r.1 r.2 h

/-- The same for an attempt, whose answer may be an error. -/
def Attempt.Ends (x : Attempt σ α) (s : σ) (h : Host)
    (post : Except Error α → σ → Host → Prop) : Prop :=
  Work.Ends x.run s h post

/-- Two results in a row come to a result iff the first is one and the second, given it, is
that one. -/
theorem except_bind_eq_ok {ε : Type} {x : Except ε α} {f : α → Except ε β} {b : β} :
    (x >>= f) = .ok b ↔ ∃ a, x = .ok a ∧ f a = .ok b := by
  cases x with
  | error e => exact ⟨fun h => (by cases h), fun ⟨_, h, _⟩ => (by cases h)⟩
  | ok a => exact ⟨fun h => ⟨a, rfl, h⟩, fun ⟨_, h, h'⟩ => (by cases h; exact h')⟩

theorem ok_of_isOk {ε : Type} {x : Except ε Unit} (is : x.isOk = true) : x = .ok () := by
  cases x with
  | error e => cases is
  | ok _ => rfl

theorem ok_of_toOption {ε α : Type} {x : Except ε α} {a : α} (is : x.toOption = some a) :
    x = .ok a := by
  cases x with
  | error e => cases is
  | ok _ => cases is; rfl

/-! ## Work in the world -/

namespace HostM

variable {h : Host}

theorem ends_pure (a : α) {post : α → Host → Prop} : Ends (pure a) h post ↔ post a h := Iff.rfl

theorem ends_bind (m : HostM α) (f : α → HostM β) {post : β → Host → Prop} :
    Ends (m >>= f) h post ↔ Ends m h fun a h => Ends (f a) h post := Iff.rfl

theorem ends_get {post : Host → Host → Prop} : Ends get h post ↔ post h h := Iff.rfl

theorem ends_modify (f : Host → Host) {post : PUnit → Host → Prop} :
    Ends (modify f) h post ↔ post ⟨⟩ (f h) := Iff.rfl

theorem ends_modifyGet (f : Host → α × Host) {post : α → Host → Prop} :
    Ends (modifyGet f) h post ↔ post (f h).1 (f h).2 := Iff.rfl

theorem Ends.of_forall {m : HostM α} {post : α → Host → Prop} (all : ∀ a h, post a h) :
    Ends m h post := all _ _

theorem Ends.mono {m : HostM α} {post post' : α → Host → Prop} (ends : Ends m h post)
    (imp : ∀ a h, post a h → post' a h) : Ends m h post' := imp _ _ ends

theorem Ends.and {m : HostM α} {post post' : α → Host → Prop} (left : Ends m h post)
    (right : Ends m h post') : Ends m h fun a h => post a h ∧ post' a h := ⟨left, right⟩

/-- What some work comes to is what it comes to. It lets a proof that follows the work say
where a property of its end holds. -/
theorem Ends.here (m : HostM α) (h : Host) (post : α → Host → Prop) :
    Ends m h fun a h' => (Ends m h post ↔ post a h') := Iff.rfl

end HostM

/-! ## Work on a value -/

namespace Work

variable {s : σ} {h : Host}

theorem ends_bind (w : Work σ α) (f : α → Work σ β) {post : β → σ → Host → Prop} :
    Ends (w >>= f) s h post ↔ Ends w s h fun a s h => Ends (f a) s h post := Iff.rfl

theorem ends_get {post : σ → σ → Host → Prop} : Ends get s h post ↔ post s s h := Iff.rfl

theorem ends_set (t : σ) {post : PUnit → σ → Host → Prop} :
    Ends (set t) s h post ↔ post ⟨⟩ t h := Iff.rfl

theorem ends_modify (f : σ → σ) {post : PUnit → σ → Host → Prop} :
    Ends (modify f) s h post ↔ post ⟨⟩ (f s) h := Iff.rfl

theorem ends_focus {τ : Type} (part : σ → τ) (replace : σ → τ → σ) (w : Work τ α)
    {post : α → σ → Host → Prop} :
    Ends (focus part replace w) s h post ↔
      Ends w (part s) h fun a t h => post a (replace s t) h := Iff.rfl

theorem ends_lift (m : HostM α) {post : α → σ → Host → Prop} :
    Ends (liftM m) s h post ↔ HostM.Ends m h fun a h => post a s h := Iff.rfl

theorem ends_run (x : Attempt σ α) {post : Except Error α → σ → Host → Prop} :
    Ends (ExceptT.run x) s h post ↔ Attempt.Ends x s h post := Iff.rfl

theorem Ends.mono {w : Work σ α} {post post' : α → σ → Host → Prop} (ends : Ends w s h post)
    (imp : ∀ a s h, post a s h → post' a s h) : Ends w s h post' := imp _ _ _ ends

theorem Ends.and {w : Work σ α} {post post' : α → σ → Host → Prop} (left : Ends w s h post)
    (right : Ends w s h post') : Ends w s h fun a s h => post a s h ∧ post' a s h :=
  ⟨left, right⟩

/-- What each step of a loop does to the value, the loop does. -/
theorem Ends.forM {R : σ → σ → Prop} [Std.Refl R] [Trans R R R] {f : β → Work σ PUnit}
    (each : ∀ b s h, Ends (f b) s h fun _ s' _ => R s s') (l : List β) (s : σ) (h : Host) :
    Ends (l.forM f) s h fun _ s' _ => R s s' := by
  induction l generalizing s h with
  | nil => exact Std.Refl.refl s
  | cons b rest ih =>
    refine (ends_bind _ _).2 ((each b s h).mono fun _ s₁ h₁ first => ?_)
    exact (ih s₁ h₁).mono fun _ _ _ later => Trans.trans first later

end Work

/-! ## Attempts -/

namespace Attempt

variable {s : σ} {h : Host}

/-- What follows on an answer: the rest of the work, or the end at an error. -/
def After (f : α → Attempt σ β) (post : Except Error β → σ → Host → Prop) :
    Except Error α → σ → Host → Prop
  | .ok a, s, h => Ends (f a) s h post
  | .error e, s, h => post (.error e) s h

theorem after_ok (f : α → Attempt σ β) {post : Except Error β → σ → Host → Prop} (a : α) :
    After f post (.ok a) s h ↔ Ends (f a) s h post := Iff.rfl

theorem after_error (f : α → Attempt σ β) {post : Except Error β → σ → Host → Prop}
    (e : Error) : After f post (.error e) s h ↔ post (.error e) s h := Iff.rfl

theorem ends_bind (x : Attempt σ α) (f : α → Attempt σ β)
    {post : Except Error β → σ → Host → Prop} :
    Ends (x >>= f) s h post ↔ Ends x s h (After f post) := by
  show Work.Ends (x.run >>= ExceptT.bindCont f) s h post ↔ _
  rw [Work.ends_bind]
  unfold Ends Work.Ends HostM.Ends
  dsimp only
  cases (x.run s h).1.1 <;> rfl

theorem ends_pure (a : α) {post : Except Error α → σ → Host → Prop} :
    Ends (pure a) s h post ↔ post (.ok a) s h := Iff.rfl

theorem ends_throw (e : Error) {post : Except Error α → σ → Host → Prop} :
    Ends (throw e) s h post ↔ post (.error e) s h := Iff.rfl

theorem ends_get {post : Except Error σ → σ → Host → Prop} :
    Ends get s h post ↔ post (.ok s) s h := Iff.rfl

theorem ends_getHost {post : Except Error Host → σ → Host → Prop} :
    Ends (getThe Host) s h post ↔ post (.ok h) s h := Iff.rfl

theorem ends_set (t : σ) {post : Except Error PUnit → σ → Host → Prop} :
    Ends (set t) s h post ↔ post (.ok ⟨⟩) t h := Iff.rfl

theorem ends_modify (f : σ → σ) {post : Except Error PUnit → σ → Host → Prop} :
    Ends (modify f) s h post ↔ post (.ok ⟨⟩) (f s) h := Iff.rfl

theorem ends_liftHost (m : HostM α) {post : Except Error α → σ → Host → Prop} :
    Ends (liftM m) s h post ↔ HostM.Ends m h fun a h => post (.ok a) s h := Iff.rfl

theorem ends_liftWork (w : Work σ α) {post : Except Error α → σ → Host → Prop} :
    Ends (liftM w) s h post ↔ Work.Ends w s h fun a s h => post (.ok a) s h := Iff.rfl

theorem ends_focus {τ : Type} (part : σ → τ) (replace : σ → τ → σ) (x : Attempt τ α)
    {post : Except Error α → σ → Host → Prop} :
    Ends (focus part replace x) s h post ↔
      Ends x (part s) h fun r t h => post r (replace s t) h := Iff.rfl

theorem ends_mk (w : Work σ (Except Error α)) {post : Except Error α → σ → Host → Prop} :
    Ends (ExceptT.mk w) s h post ↔ Work.Ends w s h post := Iff.rfl

theorem ends_ofExcept (r : Except Error α) {post : Except Error α → σ → Host → Prop} :
    Ends (ofExcept r) s h post ↔ post r s h := Iff.rfl

theorem ends_ofDevice (m : HostM (Except DeviceError α))
    {post : Except Error α → σ → Host → Prop} :
    Ends (ofDevice m) s h post ↔
      HostM.Ends m h fun r h => post (r.mapError Error.device) s h := by
  simp only [ofDevice, ends_mk, Work.ends_bind, Work.ends_lift]
  refine ⟨fun ends => ends.mono fun r h => ?_, fun ends => ends.mono fun r h => ?_⟩ <;>
    cases r <;> exact id

/-- A step in the world that cannot fail, before what ends well from any world. -/
theorem Ends.afterHost {m : HostM β} {y : Attempt σ α}
    {post : Except Error α → σ → Host → Prop} (rest : ∀ h, Ends y s h post) :
    Ends (liftM m >>= fun _ => y) s h post :=
  (ends_bind _ _).2 ((ends_liftHost m).2 (.of_forall fun _ h => rest h))

/-- The same for a step that is made on a condition. -/
theorem Ends.afterReport {c : Prop} [Decidable c] {m : HostM β} {y : Attempt σ α}
    {post : Except Error α → σ → Host → Prop} (rest : ∀ h, Ends y s h post) :
    Ends (if c then liftM m >>= fun _ => y else y) s h post := by
  split
  · exact .afterHost rest
  · exact rest h

theorem Ends.mono {x : Attempt σ α} {post post' : Except Error α → σ → Host → Prop}
    (ends : Ends x s h post) (imp : ∀ r s h, post r s h → post' r s h) : Ends x s h post' :=
  imp _ _ _ ends

theorem Ends.and {x : Attempt σ α} {post post' : Except Error α → σ → Host → Prop}
    (left : Ends x s h post) (right : Ends x s h post') :
    Ends x s h fun r s h => post r s h ∧ post' r s h := ⟨left, right⟩

theorem Ends.here (x : Attempt σ α) (s : σ) (h : Host) (post : Except Error α → σ → Host → Prop) :
    Ends x s h fun r s' h' => (Ends x s h post ↔ post r s' h') := Iff.rfl

/-- The rule for two attempts in a row: what the first ends with has to be enough for the
second, and an error of the first has to be a proper end. -/
theorem Ends.bind {x : Attempt σ α} {f : α → Attempt σ β}
    {mid : Except Error α → σ → Host → Prop} {post : Except Error β → σ → Host → Prop}
    (first : Ends x s h mid) (rest : ∀ a s h, mid (.ok a) s h → Ends (f a) s h post)
    (failed : ∀ e s h, mid (.error e) s h → post (.error e) s h) :
    Ends (x >>= f) s h post := by
  rw [ends_bind]
  refine first.mono fun r s h held => ?_
  cases r with
  | ok a => exact rest a s h held
  | error e => exact failed e s h held

/-- An attempt ends without an error. -/
def Succeeds (x : Attempt σ α) (s : σ) (h : Host) : Prop :=
  Ends x s h fun r _ _ => ∃ a, r = .ok a

/-- What an attempt that succeeds ends with is as for an answer. -/
theorem Succeeds.ends {x : Attempt σ α} {mid : Except Error α → σ → Host → Prop}
    (ok : Succeeds x s h) (ends : Ends x s h mid) :
    Ends x s h fun r s h => ∃ a, r = .ok a ∧ mid (.ok a) s h := by
  refine (Ends.and ok ends).mono ?_
  rintro r s h ⟨⟨a, rfl⟩, held⟩
  exact ⟨a, rfl, held⟩

/-- Two attempts in a row succeed if the second does wherever the first, succeeding, ends. -/
theorem Succeeds.bind {x : Attempt σ α} {f : α → Attempt σ β}
    {mid : Except Error α → σ → Host → Prop} (ok : Succeeds x s h) (ends : Ends x s h mid)
    (rest : ∀ a s h, mid (.ok a) s h → Succeeds (f a) s h) : Succeeds (x >>= f) s h := by
  refine Ends.bind (ok.ends ends) ?_ ?_
  · rintro a s h ⟨a', eq, held⟩
    cases eq
    exact rest a s h held
  · rintro e s h ⟨a, eq, held⟩
    cases eq

theorem Succeeds.answer {x : Attempt σ Unit} (ok : Succeeds x s h) :
    Ends x s h fun r _ _ => r = .ok () := by
  refine Ends.mono ok ?_
  rintro r s h ⟨⟨⟩, eq⟩
  exact eq

/-- The answer is an error with which the device refused. -/
def Refused (r : Except Error α) (_ : σ) (_ : Host) : Prop := ∃ d, r = .error (.device d)

/-- A refusal ends the whole of the work. -/
theorem Ends.refused_bind {x : Attempt σ α} (f : α → Attempt σ β)
    (refused : Ends x s h Refused) : Ends (x >>= f) s h Refused := by
  refine refused.bind ?_ ?_
  · rintro a s h ⟨d, eq⟩
    cases eq
  · rintro e s h ⟨d, eq⟩
    cases eq
    exact ⟨d, rfl⟩

end Attempt

end SurfaceShading
