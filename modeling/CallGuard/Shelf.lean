/-! # Numbered places, all but finitely many of which hold the default value

Dispatchers name what they share with others (ledgers, registries, resolved methods) by number. A
place that was never written reads as the default, so reading and writing are total and obey the
laws of a function update. -/

namespace CallGuard

/-- A value for every natural number. -/
structure Shelf (α : Type) where
  items : Array α
deriving Repr, Inhabited

namespace Shelf

variable {α : Type} [Inhabited α]

def empty : Shelf α := ⟨#[]⟩

def get (s : Shelf α) (i : Nat) : α := s.items[i]?.getD default

/-- Writes a place, after as many further places as it needs. -/
def set (s : Shelf α) (i : Nat) (a : α) : Shelf α :=
  if i < s.items.size then ⟨s.items.setIfInBounds i a⟩
  else ⟨(s.items ++ Array.replicate (i - s.items.size) default).push a⟩

def modify (s : Shelf α) (i : Nat) (f : α → α) : Shelf α := s.set i (f (s.get i))

@[simp] theorem get_empty (i : Nat) : (empty : Shelf α).get i = default := rfl

theorem get_set (s : Shelf α) (i j : Nat) (a : α) :
    (s.set i a).get j = if j = i then a else s.get j := by
  unfold set get
  split
  · next h => grind
  · next h => grind

@[simp] theorem get_set_self (s : Shelf α) (i : Nat) (a : α) : (s.set i a).get i = a := by
  simp [get_set]

/-- Of two writes to a place the later one counts. -/
theorem set_set (s : Shelf α) (i : Nat) (a b : α) : (s.set i a).set i b = s.set i b := by
  unfold set
  split
  · next h => simp [h]
  · next h =>
    -- the first write has made the array long enough for the second
    generalize hpadded : s.items ++ Array.replicate (i - s.items.size) default = padded
    obtain rfl : padded.size = i := by simp [← hpadded]; omega
    simp [Array.setIfInBounds, Array.set_push]

theorem get_modify (s : Shelf α) (i j : Nat) (f : α → α) :
    (s.modify i f).get j = if j = i then f (s.get i) else s.get j := get_set ..

end Shelf

end CallGuard
