/-
  What a piece of work does to the world, whatever it works on and however it ends.
  `Keeps R w` says that the world after `w` is related by `R` to the world before. For a
  relation that is reflexive and transitive this follows step by step from the definition of
  the work; the lemmas below are those steps.
-/
import SurfaceShading.Proofs.Outcome

namespace SurfaceShading

variable {σ τ α β : Type} (R : Host → Host → Prop)

/-- The world after `m` is related to the world before. -/
def HostM.Keeps (m : HostM α) : Prop := ∀ h, Ends m h fun _ h' => R h h'

/-- The world after `w` is related to the world before. -/
def Work.Keeps (w : Work σ α) : Prop := ∀ s h, Ends w s h fun _ _ h' => R h h'

/-- The world after `x` is related to the world before, be it an error or not. -/
def Attempt.Keeps (x : Attempt σ α) : Prop := ∀ s h, Ends x s h fun _ _ h' => R h h'

variable {R}

namespace HostM.Keeps

theorem pure [Std.Refl R] {a : α} : HostM.Keeps R (pure a) := fun _ => Std.Refl.refl _

theorem get [Std.Refl R] : HostM.Keeps R get := fun _ => Std.Refl.refl _

theorem modify {f : Host → Host} (keeps : ∀ h, R h (f h)) : HostM.Keeps R (modify f) := keeps

theorem bind [Trans R R R] {m : HostM α} {f : α → HostM β} (first : HostM.Keeps R m)
    (rest : ∀ a, HostM.Keeps R (f a)) : HostM.Keeps R (m >>= f) := fun h =>
  (first h).mono fun a h' before => (rest a h').mono fun _ _ after => Trans.trans before after

theorem mono {R' : Host → Host → Prop} {m : HostM α} (keeps : HostM.Keeps R m)
    (imp : ∀ h h', R h h' → R' h h') : HostM.Keeps R' m := fun h => imp _ _ (keeps h)

theorem runWork {w : Work σ α} (keeps : Work.Keeps R w) (s : σ) :
    HostM.Keeps R (StateT.run w s) := keeps s

theorem runAttempt {x : Attempt σ α} (keeps : Attempt.Keeps R x) (s : σ) :
    HostM.Keeps R (StateT.run (ExceptT.run x) s) := keeps s

end HostM.Keeps

namespace Work.Keeps

theorem pure [Std.Refl R] {a : α} : Work.Keeps R (pure a : Work σ α) :=
  fun _ _ => Std.Refl.refl _

theorem get [Std.Refl R] : Work.Keeps R (get : Work σ σ) := fun _ _ => Std.Refl.refl _

theorem set [Std.Refl R] {t : σ} : Work.Keeps R (set t : Work σ PUnit) :=
  fun _ _ => Std.Refl.refl _

theorem modify [Std.Refl R] {f : σ → σ} : Work.Keeps R (modify f : Work σ PUnit) :=
  fun _ _ => Std.Refl.refl _

theorem lift {m : HostM α} (keeps : HostM.Keeps R m) : Work.Keeps R (liftM m : Work σ α) :=
  fun _ h => keeps h

theorem bind [Trans R R R] {w : Work σ α} {f : α → Work σ β} (first : Work.Keeps R w)
    (rest : ∀ a, Work.Keeps R (f a)) : Work.Keeps R (w >>= f) := fun s h =>
  (first s h).mono fun a s h' before =>
    (rest a s h').mono fun _ _ _ after => Trans.trans before after

theorem mono {R' : Host → Host → Prop} {w : Work σ α} (keeps : Work.Keeps R w)
    (imp : ∀ h h', R h h' → R' h h') : Work.Keeps R' w := fun s h => imp _ _ (keeps s h)

theorem run {x : Attempt σ α} (keeps : Attempt.Keeps R x) : Work.Keeps R (ExceptT.run x) := keeps

theorem focus {part : σ → τ} {replace : σ → τ → σ} {w : Work τ α} (keeps : Work.Keeps R w) :
    Work.Keeps R (focus part replace w) := fun s h => keeps (part s) h

theorem forM [Std.Refl R] [Trans R R R] {f : β → Work σ PUnit} (keeps : ∀ b, Work.Keeps R (f b))
    (l : List β) : Work.Keeps R (l.forM f) := by
  induction l with
  | nil => exact pure
  | cons b rest ih => exact bind (keeps b) fun _ => ih

end Work.Keeps

namespace Attempt.Keeps

theorem pure [Std.Refl R] {a : α} : Attempt.Keeps R (pure a : Attempt σ α) :=
  fun _ _ => Std.Refl.refl _

theorem throw [Std.Refl R] {e : Error} : Attempt.Keeps R (throw e : Attempt σ α) :=
  fun _ _ => Std.Refl.refl _

theorem get [Std.Refl R] : Attempt.Keeps R (get : Attempt σ σ) := fun _ _ => Std.Refl.refl _

theorem getHost [Std.Refl R] : Attempt.Keeps R (getThe Host : Attempt σ Host) :=
  fun _ _ => Std.Refl.refl _

theorem set [Std.Refl R] {t : σ} : Attempt.Keeps R (set t : Attempt σ PUnit) :=
  fun _ _ => Std.Refl.refl _

theorem modify [Std.Refl R] {f : σ → σ} : Attempt.Keeps R (modify f : Attempt σ PUnit) :=
  fun _ _ => Std.Refl.refl _

theorem ofExcept [Std.Refl R] {r : Except Error α} : Attempt.Keeps R (ofExcept r : Attempt σ α) :=
  fun _ _ => Std.Refl.refl _

theorem liftHost {m : HostM α} (keeps : HostM.Keeps R m) :
    Attempt.Keeps R (liftM m : Attempt σ α) := fun _ h => keeps h

theorem liftWork {w : Work σ α} (keeps : Work.Keeps R w) :
    Attempt.Keeps R (liftM w : Attempt σ α) := keeps

theorem mk {w : Work σ (Except Error α)} (keeps : Work.Keeps R w) :
    Attempt.Keeps R (ExceptT.mk w) := keeps

theorem mono {R' : Host → Host → Prop} {x : Attempt σ α} (keeps : Attempt.Keeps R x)
    (imp : ∀ h h', R h h' → R' h h') : Attempt.Keeps R' x := fun s h => imp _ _ (keeps s h)

theorem ofDevice {m : HostM (Except DeviceError α)} (keeps : HostM.Keeps R m) :
    Attempt.Keeps R (ofDevice m : Attempt σ α) := fun _ h => (ends_ofDevice m).2 (keeps h)

theorem bind [Trans R R R] {x : Attempt σ α} {f : α → Attempt σ β} (first : Attempt.Keeps R x)
    (rest : ∀ a, Attempt.Keeps R (f a)) : Attempt.Keeps R (x >>= f) := fun s h =>
  Ends.bind (first s h)
    (fun a s h' before => (rest a s h').mono fun _ _ _ after => Trans.trans before after)
    fun _ _ _ before => before

/-- A step that is made on a condition, and what follows either way. -/
theorem onCondition [Trans R R R] {c : Prop} [Decidable c] {x : Attempt σ α} {y : Attempt σ β}
    (first : Attempt.Keeps R x) (rest : Attempt.Keeps R y) :
    Attempt.Keeps R (if c then x >>= fun _ => y else y) := by
  split
  · exact bind first fun _ => rest
  · exact rest

theorem focus {part : σ → τ} {replace : σ → τ → σ} {x : Attempt τ α} (keeps : Attempt.Keeps R x) :
    Attempt.Keeps R (focus part replace x) := fun s h => keeps (part s) h

end Attempt.Keeps

/-- A step in the world that is made on a condition, before what ends well from any world that
is related to this one. -/
theorem Attempt.Ends.afterKeeping [Std.Refl R] {c : Prop} [Decidable c] {m : HostM β}
    (keeps : HostM.Keeps R m) {y : Attempt σ α} {s : σ} {h : Host}
    {post : Except Error α → σ → Host → Prop} (rest : ∀ h', R h h' → Ends y s h' post) :
    Ends (if c then liftM m >>= fun _ => y else y) s h post := by
  split
  · exact (ends_bind _ _).2 ((ends_liftHost m).2 ((keeps h).mono fun _ h' related =>
      rest h' related))
  · exact rest h (Std.Refl.refl h)

end SurfaceShading
