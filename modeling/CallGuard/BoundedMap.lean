import CallGuard.Dict
/-! # Maps that refuse new keys when they are full

A key that is stored can always be given another value. Looking a key up and storing a value for it
when there is none comes in two forms, which agree on everything but the values they build:
`getOrInsert` asks for room first, and `getOrPut` builds the value before `put` may refuse it. -/

namespace CallGuard

structure Full where
  capacity : Nat
deriving DecidableEq, Repr

/-- A map from texts with at most `capacity` keys. -/
structure BoundedMap (α : Type) where
  capacity : Nat
  entries : Dict String α
deriving Repr

namespace BoundedMap

variable {α : Type}

def empty (capacity : Nat) : BoundedMap α := ⟨capacity, Dict.empty⟩

def size (m : BoundedMap α) : Nat := m.entries.size

def get? (m : BoundedMap α) (key : String) : Option α := m.entries.get? key

def contains (m : BoundedMap α) (key : String) : Bool := m.entries.contains key

def isFull (m : BoundedMap α) : Bool := m.capacity ≤ m.size

def put (m : BoundedMap α) (key : String) (value : α) : Except Full (BoundedMap α) :=
  if !m.contains key && m.isFull then .error ⟨m.capacity⟩
  else .ok { m with entries := m.entries.insert key value }

def remove (m : BoundedMap α) (key : String) : BoundedMap α :=
  { m with entries := m.entries.erase key }

structure Access (α : Type) where
  outcome : Except Full α
  map : BoundedMap α
  built : Nat

/-- The value under a key, or `make` stored under it. -/
def getOrInsert (m : BoundedMap α) (key : String) (make : α) : Access α :=
  match m.get? key with
  | some a => ⟨.ok a, m, 0⟩
  | none =>
    if m.isFull then ⟨.error ⟨m.capacity⟩, m, 0⟩
    else ⟨.ok make, { m with entries := m.entries.insert key make }, 1⟩

/-- The value under a key, or `make`, put there by `put`. -/
def getOrPut (m : BoundedMap α) (key : String) (make : α) : Access α :=
  match m.get? key with
  | some a => ⟨.ok a, m, 0⟩
  | none =>
    match m.put key make with
    | .ok m' => ⟨.ok make, m', 1⟩
    | .error full => ⟨.error full, m, 1⟩

end BoundedMap

end CallGuard
