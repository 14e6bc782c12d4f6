/-! # Finite maps as lists of entries, in the order in which the keys first came in

Everything the library looks up by name (declarations, registrations, live retry keys, resolved
methods) is one of these maps. The lemmas say what each operation does to `get?`, which is the
view later modules reason with, to `size`, which bounded maps count, and to `keys`. -/

namespace CallGuard

structure Dict (κ α : Type) where
  /-- Keys with their values, oldest key first. -/
  entries : List (κ × α)
deriving Repr

namespace Dict

variable {κ α : Type}

def empty : Dict κ α := ⟨[]⟩

instance : Inhabited (Dict κ α) := ⟨empty⟩

def size (d : Dict κ α) : Nat := d.entries.length

def keys (d : Dict κ α) : List κ := d.entries.map (·.1)

variable [DecidableEq κ]

def lookup : List (κ × α) → κ → Option α
  | [], _ => none
  | (j, a) :: es, k => if j = k then some a else lookup es k

/-- Overwrites the first entry for `k`, or adds one at the end. -/
def put : List (κ × α) → κ → α → List (κ × α)
  | [], k, a => [(k, a)]
  | (j, b) :: es, k, a => if j = k then (k, a) :: es else (j, b) :: put es k a

def get? (d : Dict κ α) (k : κ) : Option α := lookup d.entries k

def contains (d : Dict κ α) (k : κ) : Bool := (d.get? k).isSome

/-- Gives `k` the value `a`: in place when `k` is known, else as the newest entry. -/
def insert (d : Dict κ α) (k : κ) (a : α) : Dict κ α := ⟨put d.entries k a⟩

def insertNew (d : Dict κ α) (k : κ) (a : α) : Dict κ α := if d.contains k then d else d.insert k a

def erase (d : Dict κ α) (k : κ) : Dict κ α := ⟨d.entries.filter (·.1 ≠ k)⟩

theorem lookup_put (es : List (κ × α)) (k j : κ) (a : α) :
    lookup (put es k a) j = if j = k then some a else lookup es j := by
  induction es with
  | nil => simp [put, lookup, eq_comm]
  | cons e es ih => grind [put, lookup]

theorem lookup_filter_ne (es : List (κ × α)) (k j : κ) :
    lookup (es.filter (·.1 ≠ k)) j = if j = k then none else lookup es j := by
  induction es with
  | nil => simp [lookup]
  | cons e es ih => grind [lookup]

theorem length_put (es : List (κ × α)) (k : κ) (a : α) :
    (put es k a).length = if (lookup es k).isSome then es.length else es.length + 1 := by
  induction es with
  | nil => simp [put, lookup]
  | cons e es ih => grind [put, lookup]

@[simp] theorem get?_empty (k : κ) : (empty : Dict κ α).get? k = none := rfl

theorem get?_insert (d : Dict κ α) (k j : κ) (a : α) :
    (d.insert k a).get? j = if j = k then some a else d.get? j :=
  lookup_put d.entries k j a

@[simp] theorem get?_insert_self (d : Dict κ α) (k : κ) (a : α) :
    (d.insert k a).get? k = some a := by simp [get?_insert]

theorem get?_insertNew (d : Dict κ α) (k j : κ) (a : α) :
    (d.insertNew k a).get? j = if j = k then some ((d.get? k).getD a) else d.get? j := by
  unfold insertNew contains
  cases h : d.get? k <;> by_cases hj : j = k <;> simp_all [get?_insert]

theorem get?_erase (d : Dict κ α) (k j : κ) :
    (d.erase k).get? j = if j = k then none else d.get? j :=
  lookup_filter_ne d.entries k j

@[simp] theorem get?_erase_self (d : Dict κ α) (k : κ) : (d.erase k).get? k = none := by
  simp [get?_erase]

theorem size_insert (d : Dict κ α) (k : κ) (a : α) :
    (d.insert k a).size = if d.contains k then d.size else d.size + 1 :=
  length_put d.entries k a

theorem size_erase_le (d : Dict κ α) (k : κ) : (d.erase k).size ≤ d.size :=
  List.length_filter_le _ _

omit [DecidableEq κ] in
theorem length_keys (d : Dict κ α) : d.keys.length = d.size := List.length_map _

theorem mem_keys {d : Dict κ α} {k : κ} : k ∈ d.keys ↔ (d.get? k).isSome = true := by
  obtain ⟨es⟩ := d
  change k ∈ es.map (·.1) ↔ (lookup es k).isSome = true
  induction es with
  | nil => simp [lookup]
  | cons e es ih => grind [lookup]

theorem keys_insert (d : Dict κ α) (k : κ) (a : α) :
    (d.insert k a).keys = if k ∈ d.keys then d.keys else d.keys ++ [k] := by
  obtain ⟨es⟩ := d
  change (put es k a).map (·.1) = if k ∈ es.map (·.1) then es.map (·.1) else es.map (·.1) ++ [k]
  induction es with
  | nil => simp [put]
  | cons e es ih => grind [put]

theorem keys_erase (d : Dict κ α) (k : κ) : (d.erase k).keys = d.keys.filter (· ≠ k) := by
  change (d.entries.filter (·.1 ≠ k)).map (·.1) = _
  simp [keys, List.filter_map, Function.comp_def]

end Dict

end CallGuard
