/-
  Types of values. Every value that is read has the type that was asked for, so the default of
  a property has the declared type whatever its text is.
-/
import SurfaceShading.Proofs.Outcome
import SurfaceShading.Shader.Layout

namespace SurfaceShading

theorem except_map_eq_ok {ε α β : Type} {f : α → β} {x : Except ε α} {b : β} :
    f <$> x = .ok b ↔ ∃ a, x = .ok a ∧ f a = b := by
  cases x with
  | error e => exact ⟨fun is => (by cases is), fun ⟨_, is, _⟩ => (by cases is)⟩
  | ok a =>
    refine ⟨fun is => ⟨a, rfl, Except.ok.inj is⟩, ?_⟩
    rintro ⟨_, is, rfl⟩
    cases is
    rfl

namespace Value

@[simp] theorem type_zero (t : ValueType) : (zero t).type = t := by cases t <;> rfl

theorem type_of_read {t : ValueType} {text : List Char} {v : Value} (is : read t text = .ok v) :
    v.type = t := by
  cases t with
  | float | int | bool =>
    obtain ⟨_, _, rfl⟩ := except_map_eq_ok.1 is
    rfl
  | vector2 | vector3 | vector4 =>
    obtain ⟨xs, _, made⟩ := except_bind_eq_ok.1 is
    split at made
    · cases made; rfl
    · cases made

theorem type_of_parse {t : ValueType} {text : String} {v : Value}
    (is : parse (.value t) text = .ok v) : v.type = t := type_of_read is

end Value

@[simp] theorem Property.type_defaultValue (p : Property) (t : ValueType) :
    (p.defaultValue t).type = t := by
  unfold defaultValue
  split
  · exact Value.type_zero t
  · split
    · next is => exact Value.type_of_parse is
    · exact Value.type_zero t

end SurfaceShading
