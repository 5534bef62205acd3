/-
  The allocator of texture slots: which of the slots of a table are taken, and where the
  search for a free one goes on.
-/

namespace SurfaceShading

/-- The slots of a table whose first slot has index `base`. The cursor is where the next search
starts, and `taken` counts the slots in use. -/
structure Slots where
  used : Array Bool
  base : Nat
  cursor : Nat
  taken : Nat
  deriving Repr, DecidableEq

/-- The number of indices there are: an index is a word of 32 bits. Counting wraps, where checked
sums would break off. -/
def indexSpace : Nat := UInt32.size

/-- Why an index could not be freed. -/
inductive FreeFault where
  | outOfRange
  | notTaken
  deriving Repr, DecidableEq

namespace Slots

/-- All slots free. -/
def new (capacity base : Nat) : Slots := ⟨Array.replicate capacity false, base, 0, 0⟩

def capacity (s : Slots) : Nat := s.used.size

/-- Whether a slot is in use. -/
def isUsed (s : Slots) (slot : Nat) : Bool := s.used.getD slot false

/-- The index of a slot that is counted from the base. -/
def indexOf (s : Slots) (slot : Nat) : Nat := (s.base + slot) % indexSpace

/-- How far an index is from the base. -/
def distance (s : Slots) (index : Nat) : Nat := (index + indexSpace - s.base) % indexSpace

/-- The slot of an index, counted from the base; none stands below the base. -/
def relative? (s : Slots) (index : Nat) : Option Nat :=
  if s.base ≤ index ∧ index - s.base < s.capacity then some (index - s.base) else none

/-- Whether an index is in use. -/
def isAllocated (s : Slots) (index : Nat) : Bool :=
  match s.relative? index with
  | some slot => s.isUsed slot
  | none => false

/-- The first free one of a number of slots from a given one on, going round. -/
def freeFrom? (s : Slots) (slot : Nat) : Nat → Option Nat
  | 0 => none
  | count + 1 =>
    if s.isUsed slot then s.freeFrom? ((slot + 1) % s.capacity) count else some slot

/-- The first free slot from the cursor on. -/
def firstFree? (s : Slots) : Option Nat := s.freeFrom? s.cursor s.capacity

/-- Takes a free slot and gives its index. -/
@[inline] def allocate (s : Slots) : Option (Nat × Slots) :=
  if s.taken = s.capacity then none
  else
    match s.firstFree? with
    | none => none
    | some slot =>
      some (s.indexOf slot,
        { s with
          used := s.used.setIfInBounds slot true
          cursor := (slot + 1) % s.capacity
          taken := s.taken + 1 })

/-- Frees an index. -/
def free (s : Slots) (index : Nat) : Except FreeFault Slots :=
  match s.relative? index with
  | none => .error .outOfRange
  | some slot =>
    if s.isUsed slot then
      .ok { s with used := s.used.setIfInBounds slot false, taken := s.taken - 1 }
    else .error .notTaken

/-- The slots as 64-bit words, the first slot in the lowest bit of the first word. -/
def bitmap (s : Slots) : List Nat :=
  (List.range ((s.capacity + 63) / 64)).map fun word =>
    (List.range 64).foldr (fun bit n => 2 * n + (s.isUsed (64 * word + bit)).toNat) 0

end Slots

end SurfaceShading
