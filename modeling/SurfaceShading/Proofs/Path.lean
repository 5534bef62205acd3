/-
  Paths as lists of steps. The steps of a path are neither empty nor do they hold a slash, so a
  path is known by them (`Path.intercalate_inj`), and two paths are one to those who compare
  them by components exactly if their canonical texts are one (`Path.canonical_eq_iff`).
-/
import SurfaceShading.Files.Path
import SurfaceShading.Proofs.Text.Lines
import Mathlib.Data.List.Basic
import Mathlib.Logic.Function.Basic

namespace SurfaceShading

namespace Path

/-- A step is not empty and has no slash in it. -/
theorem step_of_mem_components {path step : String} (mem : step ∈ components path) :
    step.toList ≠ [] ∧ '/' ∉ step.toList := by
  have written : step ∈ steps path := by
    unfold components at mem
    split at mem
    · cases mem
    · next first rest are =>
      rw [are]
      dsimp only at mem
      split at mem
      · exact List.mem_cons_of_mem _ (List.mem_of_mem_filter mem)
      · rcases List.mem_cons.1 mem with rfl | mem
        · exact List.mem_cons_self
        · exact List.mem_cons_of_mem _ (List.mem_of_mem_filter mem)
  obtain ⟨piece, kept, rfl⟩ := List.mem_map.1 written
  obtain ⟨mem, notEmpty⟩ := List.mem_filter.1 kept
  rw [String.toList_ofList]
  exact ⟨by simpa using notEmpty, Text.not_mem_of_mem_splitAtChar mem⟩

/-- The text of steps with slashes between them does not start with a slash. -/
theorem head?_intercalate {l : List (List Char)} (steps : ∀ s ∈ l, s ≠ [] ∧ '/' ∉ s) :
    (['/'].intercalate l).head? ≠ some '/' := by
  cases l with
  | nil => exact nofun
  | cons s rest =>
    obtain ⟨notEmpty, noSlash⟩ := steps s List.mem_cons_self
    obtain ⟨c, cs, rfl⟩ := List.exists_cons_of_ne_nil notEmpty
    have head : (['/'].intercalate ((c :: cs) :: rest)).head? = some c := by
      cases rest <;> simp [List.intercalate]
    rw [head]
    intro same
    cases same
    exact noSlash List.mem_cons_self

theorem intercalate_inj {l l' : List (List Char)} (steps : ∀ s ∈ l, s ≠ [] ∧ '/' ∉ s)
    (steps' : ∀ s ∈ l', s ≠ [] ∧ '/' ∉ s)
    (same : ['/'].intercalate l = ['/'].intercalate l') : l = l' := by
  have ne {l : List (List Char)} (steps : ∀ s ∈ l, s ≠ [] ∧ '/' ∉ s) (ne : l ≠ []) :
      ['/'].intercalate l ≠ [] := by
    obtain ⟨s, rest, rfl⟩ := List.exists_cons_of_ne_nil ne
    obtain ⟨c, cs, rfl⟩ := List.exists_cons_of_ne_nil (steps s List.mem_cons_self).1
    cases rest <;> simp [List.intercalate]
  by_cases none : l = []
  · subst none
    by_contra some'
    exact ne steps' (Ne.symm some') same.symm
  · by_cases none' : l' = []
    · subst none'
      exact absurd same (ne steps none)
    · rw [← List.splitOn_intercalate '/' (fun s mem => (steps s mem).2) none, same,
        List.splitOn_intercalate '/' (fun s mem => (steps' s mem).2) none']

theorem steps_of_components (path : String) :
    ∀ s ∈ (components path).map String.toList, s ≠ [] ∧ '/' ∉ s := by
  intro s mem
  obtain ⟨step, mem', rfl⟩ := List.mem_map.1 mem
  exact step_of_mem_components mem'

theorem toList_canonical (path : String) : (canonical path).toList =
    (if isAbsolute path then ['/'] else []) ++
      ['/'].intercalate ((components path).map String.toList) := by
  unfold canonical
  split <;> simp [String.toList_intercalate, *]

theorem head?_canonical (path : String) :
    (canonical path).toList.head? = some '/' ↔ isAbsolute path = true := by
  rw [toList_canonical]
  split
  · next absolute => exact iff_of_true rfl absolute
  · next relative =>
    rw [List.nil_append]
    exact iff_of_false (head?_intercalate (steps_of_components path)) relative

/-- Paths are the same to a table if they have the same components, from the root or not. -/
theorem canonical_eq_iff {p q : String} :
    canonical p = canonical q ↔ isAbsolute p = isAbsolute q ∧ components p = components q := by
  constructor
  · intro same
    have absolute : isAbsolute p = isAbsolute q := by
      rw [Bool.eq_iff_iff, ← head?_canonical, ← head?_canonical, same]
    have lists := congrArg String.toList same
    rw [toList_canonical, toList_canonical, absolute] at lists
    have pieces := intercalate_inj (steps_of_components p) (steps_of_components q)
      (List.append_cancel_left lists)
    exact ⟨absolute, List.map_injective_iff.2 (fun _ _ => String.toList_inj.1) pieces⟩
  · rintro ⟨absolute, same⟩
    rw [canonical, canonical, absolute, same]

end Path

end SurfaceShading
