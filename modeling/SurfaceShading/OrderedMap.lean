/-
  Finite maps kept as lists of entries in ascending order of their keys. What a lookup
  answers after an insertion or a removal does not depend on the order, which only decides
  how the entries are listed.
-/

namespace SurfaceShading

/-- A map as a list of entries, at most one for each key. -/
structure OrderedMap (κ α : Type) where
  entries : List (κ × α)
  deriving Repr, DecidableEq

namespace OrderedMap

variable {κ α β : Type}

/-- The map without entries. -/
def empty : OrderedMap κ α := ⟨[]⟩

instance : Inhabited (OrderedMap κ α) := ⟨empty⟩

def size (m : OrderedMap κ α) : Nat := m.entries.length

def isEmpty (m : OrderedMap κ α) : Bool := m.entries.isEmpty

/-- The keys in ascending order. -/
def keys (m : OrderedMap κ α) : List κ := m.entries.map Prod.fst

/-- The values in the order of their keys. -/
def values (m : OrderedMap κ α) : List α := m.entries.map Prod.snd

/-- The entries whose key and value pass a test. -/
def filter (p : κ → α → Bool) (m : OrderedMap κ α) : OrderedMap κ α :=
  ⟨m.entries.filter fun e => p e.1 e.2⟩

/-- Changes every value. -/
def mapValues (f : κ → α → β) (m : OrderedMap κ α) : OrderedMap κ β :=
  ⟨m.entries.map fun e => (e.1, f e.1 e.2)⟩

variable [DecidableEq κ]

/-- The value of the first entry with a key. -/
def find (k : κ) : List (κ × α) → Option α
  | [] => none
  | (k', x) :: rest => if k = k' then some x else find k rest

/-- The value of a key. -/
def get? (m : OrderedMap κ α) (k : κ) : Option α := find k m.entries

def contains (m : OrderedMap κ α) (k : κ) : Bool := (m.get? k).isSome

/-- Removes the entry of a key. -/
def erase (m : OrderedMap κ α) (k : κ) : OrderedMap κ α :=
  ⟨m.entries.filter fun e => e.1 ≠ k⟩

variable [LT κ] [DecidableLT κ]

/-- Puts an entry in front of the first greater key, in place of an entry of the same key. -/
def place (k : κ) (x : α) : List (κ × α) → List (κ × α)
  | [] => [(k, x)]
  | (k', y) :: rest =>
    if k = k' then (k, x) :: rest
    else if k < k' then (k, x) :: (k', y) :: rest
    else (k', y) :: place k x rest

/-- Gives a key a value, replacing any it had. -/
def insert (m : OrderedMap κ α) (k : κ) (x : α) : OrderedMap κ α :=
  ⟨place k x m.entries⟩

/-- The map of a list of entries; of two with one key the later holds. -/
def ofList (entries : List (κ × α)) : OrderedMap κ α :=
  entries.foldl (fun m e => m.insert e.1 e.2) empty

theorem find_place_self (k : κ) (x : α) (l : List (κ × α)) : find k (place k x l) = some x := by
  induction l with
  | nil => simp [place, find]
  | cons e rest ih =>
    obtain ⟨k', y⟩ := e
    rw [place]
    split
    · simp [find]
    · split
      · simp [find]
      · simp [find, *]

theorem find_place_of_ne {k j : κ} (h : j ≠ k) (x : α) (l : List (κ × α)) :
    find j (place k x l) = find j l := by
  induction l with
  | nil => simp [place, find, h]
  | cons e rest ih =>
    obtain ⟨k', y⟩ := e
    rw [place]
    split
    · next hk => subst hk; simp [find, h]
    · split
      · simp [find, h]
      · simp [find, ih]

@[simp] theorem get?_insert_self (m : OrderedMap κ α) (k : κ) (x : α) :
    (m.insert k x).get? k = some x := find_place_self k x m.entries

theorem get?_insert_of_ne (m : OrderedMap κ α) {k j : κ} (h : j ≠ k) (x : α) :
    (m.insert k x).get? j = m.get? j := find_place_of_ne h x m.entries

end OrderedMap

end SurfaceShading
