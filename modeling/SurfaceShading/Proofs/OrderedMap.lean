/-
  Ordered maps whose entries do ascend. `Sorted` holds of every map that is built by insertion
  and filtering. Under it a lookup says everything about a map: an entry is found iff it is
  listed (`Sorted.get?_eq_some_iff`), and two maps with the same lookups are one map
  (`Sorted.ext`).
-/
import SurfaceShading.OrderedMap

namespace SurfaceShading.OrderedMap

variable {κ α β : Type}

/-! ## Lookups -/

section Lookup

variable [DecidableEq κ]

theorem mem_of_find {k : κ} {x : α} {l : List (κ × α)} (found : find k l = some x) :
    (k, x) ∈ l := by
  induction l with
  | nil => cases found
  | cons e rest ih =>
    obtain ⟨k', y⟩ := e
    rw [find] at found
    split at found
    · next same => cases found; subst same; exact List.mem_cons_self
    · exact List.mem_cons_of_mem _ (ih found)

theorem mem_of_get? {m : OrderedMap κ α} {k : κ} {x : α} (found : m.get? k = some x) :
    (k, x) ∈ m.entries := mem_of_find found

theorem exists_find_of_mem {k : κ} {x : α} {l : List (κ × α)} (mem : (k, x) ∈ l) :
    ∃ y, find k l = some y := by
  induction l with
  | nil => cases mem
  | cons e rest ih =>
    obtain ⟨k', y⟩ := e
    by_cases same : k = k'
    · exact ⟨y, by rw [find, if_pos same]⟩
    · rw [find, if_neg same]
      refine ih ((List.mem_cons.1 mem).resolve_left fun eq => same ?_)
      exact congrArg Prod.fst eq

/-- The keys of a map are those that a lookup finds. -/
theorem mem_keys_iff {m : OrderedMap κ α} {k : κ} : k ∈ m.keys ↔ ∃ x, m.get? k = some x := by
  constructor
  · intro listed
    obtain ⟨e, mem, rfl⟩ := List.mem_map.1 listed
    exact exists_find_of_mem mem
  · rintro ⟨x, found⟩
    exact List.mem_map.2 ⟨_, mem_of_get? found, rfl⟩

theorem get?_insert [LT κ] [DecidableLT κ] (m : OrderedMap κ α) (k j : κ) (x : α) :
    (m.insert k x).get? j = if j = k then some x else m.get? j := by
  split
  · next same => rw [same, get?_insert_self]
  · next other => rw [get?_insert_of_ne m other]

theorem get?_erase (m : OrderedMap κ α) (k j : κ) :
    (m.erase k).get? j = if j = k then none else m.get? j := by
  unfold get? erase
  dsimp only
  induction m.entries with
  | nil => exact (ite_self _).symm
  | cons e rest ih =>
    obtain ⟨k', y⟩ := e
    by_cases removed : k' = k
    · rw [List.filter_cons_of_neg (by simpa using removed), ih, find]
      split
      · rfl
      · next other => rw [if_neg (removed ▸ other)]
    · rw [List.filter_cons_of_pos (by simpa using removed), find, find, ih]
      by_cases same : j = k'
      · rw [if_pos same, if_pos same, if_neg (same ▸ removed)]
      · rw [if_neg same, if_neg same]

theorem find_mapValues (f : κ → α → β) (k : κ) (l : List (κ × α)) :
    find k (l.map fun e => (e.1, f e.1 e.2)) = (find k l).map (f k) := by
  induction l with
  | nil => rfl
  | cons e rest ih =>
    obtain ⟨k', y⟩ := e
    rw [List.map_cons, find, find]
    split
    · next same => rw [same]; rfl
    · exact ih

theorem get?_mapValues (f : κ → α → β) (m : OrderedMap κ α) (k : κ) :
    (m.mapValues f).get? k = (m.get? k).map (f k) := find_mapValues f k m.entries

/-- The keys of a map into which keys were inserted. -/
theorem mem_keys_insertAll [LT κ] [DecidableLT κ] (m : OrderedMap κ α) (ks : List κ) (x : α)
    {k : κ} : k ∈ (ks.foldl (fun m k => m.insert k x) m).keys ↔ k ∈ m.keys ∨ k ∈ ks := by
  induction ks generalizing m with
  | nil => exact ⟨.inl, fun mem => mem.resolve_right List.not_mem_nil⟩
  | cons k' rest ih =>
    have inserted : k ∈ (m.insert k' x).keys ↔ k = k' ∨ k ∈ m.keys := by
      rw [mem_keys_iff, mem_keys_iff, get?_insert]
      split
      · next same => exact iff_of_true ⟨x, rfl⟩ (.inl same)
      · next other => exact ⟨.inr, fun mem => mem.resolve_left other⟩
    rw [List.foldl_cons, ih, inserted, List.mem_cons, or_assoc, or_left_comm]

theorem mem_place [LT κ] [DecidableLT κ] {k : κ} {x : α} {e : κ × α} {l : List (κ × α)}
    (mem : e ∈ place k x l) : e = (k, x) ∨ e ∈ l := by
  induction l with
  | nil => exact .inl (List.mem_singleton.1 mem)
  | cons e' rest ih =>
    obtain ⟨k', y⟩ := e'
    rw [place] at mem
    split at mem
    · exact (List.mem_cons.1 mem).imp id (List.mem_cons_of_mem _)
    · split at mem
      · exact List.mem_cons.1 mem
      · rcases List.mem_cons.1 mem with rfl | mem
        · exact .inr List.mem_cons_self
        · exact (ih mem).imp id (List.mem_cons_of_mem _)

end Lookup

/-! ## Order -/

/-- The keys of the entries ascend. -/
def Sorted [LT κ] (m : OrderedMap κ α) : Prop := m.entries.Pairwise fun a b => a.1 < b.1

theorem sorted_empty [LT κ] : (empty : OrderedMap κ α).Sorted := List.Pairwise.nil

theorem Sorted.pairwise_keys [LT κ] {m : OrderedMap κ α} (sorted : m.Sorted) :
    m.keys.Pairwise (· < ·) := List.pairwise_map.2 sorted

theorem Sorted.mapValues [LT κ] {m : OrderedMap κ α} (sorted : m.Sorted) (f : κ → α → β) :
    (m.mapValues f).Sorted := List.pairwise_map.2 sorted

theorem Sorted.filter [LT κ] {m : OrderedMap κ α} (sorted : m.Sorted) (p : κ → α → Bool) :
    (m.filter p).Sorted := List.Pairwise.filter _ sorted

theorem Sorted.erase [DecidableEq κ] [LT κ] {m : OrderedMap κ α} (sorted : m.Sorted) (k : κ) :
    (m.erase k).Sorted := List.Pairwise.filter _ sorted

theorem Sorted.insert [DecidableEq κ] [LT κ] [DecidableLT κ]
    [Trans (α := κ) (· < ·) (· < ·) (· < ·)] [Std.Trichotomous (α := κ) (· < ·)]
    {m : OrderedMap κ α} (sorted : m.Sorted) (k : κ) (x : α) : (m.insert k x).Sorted := by
  unfold Sorted OrderedMap.insert at *
  generalize m.entries = l at sorted ⊢
  induction l with
  | nil => exact List.pairwise_singleton ..
  | cons e rest ih =>
    obtain ⟨k', y⟩ := e
    obtain ⟨head, tail⟩ := List.pairwise_cons.1 sorted
    rw [place]
    split
    · next same => subst same; exact List.pairwise_cons.2 ⟨head, tail⟩
    · next other =>
      split
      · next less =>
        refine List.pairwise_cons.2 ⟨fun e mem => ?_, sorted⟩
        rcases List.mem_cons.1 mem with rfl | mem
        · exact less
        · exact Std.lt_trans less (head e mem)
      · next notLess =>
        have greater : k' < k :=
          ((Std.lt_trichotomy k k').resolve_left notLess).resolve_left other
        refine List.pairwise_cons.2 ⟨fun e mem => ?_, ih tail⟩
        rcases mem_place mem with rfl | mem
        · exact greater
        · exact head e mem

theorem Sorted.insertAll [DecidableEq κ] [LT κ] [DecidableLT κ]
    [Trans (α := κ) (· < ·) (· < ·) (· < ·)] [Std.Trichotomous (α := κ) (· < ·)]
    {m : OrderedMap κ α} (sorted : m.Sorted) (ks : List κ) (x : α) :
    (ks.foldl (fun m k => m.insert k x) m).Sorted := by
  induction ks generalizing m with
  | nil => exact sorted
  | cons k rest ih => exact ih (sorted.insert k x)

section Irreflexive

variable [LT κ] [Std.Irrefl (α := κ) (· < ·)]

theorem Sorted.nodup_entries {m : OrderedMap κ α} (sorted : m.Sorted) : m.entries.Nodup := by
  refine sorted.imp fun less same => ?_
  rw [same] at less
  exact Std.lt_irrefl less

theorem Sorted.nodup_keys {m : OrderedMap κ α} (sorted : m.Sorted) : m.keys.Nodup := by
  refine List.pairwise_map.2 (sorted.imp fun less same => ?_)
  rw [same] at less
  exact Std.lt_irrefl less

variable [DecidableEq κ]

theorem find_of_mem {k : κ} {x : α} {l : List (κ × α)}
    (sorted : l.Pairwise fun a b => a.1 < b.1) (mem : (k, x) ∈ l) : find k l = some x := by
  induction l with
  | nil => cases mem
  | cons e rest ih =>
    obtain ⟨k', y⟩ := e
    obtain ⟨head, tail⟩ := List.pairwise_cons.1 sorted
    rw [find]
    rcases List.mem_cons.1 mem with eq | mem
    · cases eq; exact if_pos rfl
    · have less : k' < k := head _ mem
      rw [if_neg fun same => Std.lt_irrefl (same ▸ less)]
      exact ih tail mem

/-- A lookup finds exactly the entries that are listed. -/
theorem Sorted.get?_eq_some_iff {m : OrderedMap κ α} (sorted : m.Sorted) {k : κ} {x : α} :
    m.get? k = some x ↔ (k, x) ∈ m.entries :=
  ⟨mem_of_get?, find_of_mem sorted⟩

theorem Sorted.get?_filter {m : OrderedMap κ α} (sorted : m.Sorted) (p : κ → α → Bool)
    (k : κ) : (m.filter p).get? k = (m.get? k).filter (p k) := by
  refine Option.ext fun x => ?_
  rw [(sorted.filter p).get?_eq_some_iff, Option.filter_eq_some_iff, sorted.get?_eq_some_iff]
  exact List.mem_filter

/-- A sorted map is known by its lookups. -/
theorem Sorted.ext [Trans (α := κ) (· < ·) (· < ·) (· < ·)] {m m' : OrderedMap κ α}
    (sorted : m.Sorted) (sorted' : m'.Sorted) (same : ∀ k, m.get? k = m'.get? k) : m = m' := by
  have mem_iff (e : κ × α) : e ∈ m.entries ↔ e ∈ m'.entries := by
    rw [← sorted.get?_eq_some_iff, same, sorted'.get?_eq_some_iff]
  have perm : m.entries.Perm m'.entries :=
    (List.perm_ext_iff_of_nodup sorted.nodup_entries sorted'.nodup_entries).2 mem_iff
  have entries : m.entries = m'.entries :=
    perm.eq_of_pairwise (fun a b _ _ less more => (Std.lt_irrefl (Std.lt_trans less more)).elim)
      sorted sorted'
  cases m; cases m'; exact congrArg _ entries

theorem place_of_greatest [DecidableLT κ] [Trans (α := κ) (· < ·) (· < ·) (· < ·)] {k : κ} {x : α}
    {l : List (κ × α)} (less : ∀ e ∈ l, e.1 < k) : place k x l = l ++ [(k, x)] := by
  induction l with
  | nil => rfl
  | cons e rest ih =>
    have below : e.1 < k := less e List.mem_cons_self
    have other : k ≠ e.1 := fun same => Std.lt_irrefl (same ▸ below)
    have notLess : ¬k < e.1 := fun more => Std.lt_irrefl (Std.lt_trans more below)
    rw [place, if_neg other, if_neg notLess, ih fun e mem => less e (List.mem_cons_of_mem _ mem),
      List.cons_append]

/-- The entries of a sorted map make up that map. -/
theorem Sorted.ofList_entries [DecidableLT κ] [Trans (α := κ) (· < ·) (· < ·) (· < ·)]
    {m : OrderedMap κ α} (sorted : m.Sorted) : ofList m.entries = m := by
  have all (kept rest : List (κ × α)) (sorted : (kept ++ rest).Pairwise fun a b => a.1 < b.1) :
      rest.foldl (fun m e => m.insert e.1 e.2) (⟨kept⟩ : OrderedMap κ α) = ⟨kept ++ rest⟩ := by
    induction rest generalizing kept with
    | nil => rw [List.append_nil, List.foldl_nil]
    | cons e rest ih =>
      have greatest : ∀ e' ∈ kept, e'.1 < e.1 := fun e' mem =>
        (List.pairwise_append.1 sorted).2.2 e' mem e List.mem_cons_self
      rw [List.append_cons] at sorted ⊢
      rw [List.foldl_cons, OrderedMap.insert, place_of_greatest greatest]
      exact ih _ sorted
  exact all [] m.entries sorted

end Irreflexive

end SurfaceShading.OrderedMap
