import CallGuard.BoundedMap
import Mathlib.Data.List.Induction
import Mathlib.Data.List.Nodup
/-! # Maps with a capacity, through all ways of reaching them

A bounded map is asked directly, through copies that share what is stored, and through wrappers that
know only how to read, write and remove. Whoever asks, what the map holds can be read off the log of
the requests and the replies: a change is a value stored or a key removed, and the latest change to
a key says what is held for it. `Mirrors` says so of a map and a log, and every request keeps it
(`Mirrors.serve`). In particular no two entries have the same key, so the size that is compared with
the capacity is the number of keys. -/

namespace CallGuard

namespace Dict

variable {κ α : Type} [DecidableEq κ]

theorem nodup_insert {d : Dict κ α} (h : d.keys.Nodup) (k : κ) (a : α) :
    (d.insert k a).keys.Nodup := by
  rw [keys_insert]
  split
  · exact h
  · next hk => exact List.nodup_append.mpr ⟨h, by simp, fun j hj => by grind⟩

theorem nodup_erase {d : Dict κ α} (h : d.keys.Nodup) (k : κ) : (d.erase k).keys.Nodup := by
  rw [keys_erase]
  exact h.filter _

end Dict

namespace BoundedMap

/-- A way to a map. -/
inductive Handle where
  | direct
  /-- It shares what is stored. -/
  | copy (of : Handle)
  /-- It passes reading, writing and removing on, and makes everything else of them. -/
  | wrapper (of : Handle)
deriving DecidableEq, Repr

namespace Handle

/-- Whether requests reach the map as they are. -/
def isPlain : Handle → Bool
  | direct => true
  | copy h => h.isPlain
  | wrapper _ => false

end Handle

inductive Request (α : Type) where
  | put (key : String) (value : α)
  | get (key : String)
  | remove (key : String)
  | contains (key : String)
  | getOrInsert (key : String) (make : α)
deriving DecidableEq, Repr

inductive Reply (α : Type) where
  | stored
  | value (a : Option α)
  | removed
  | present (b : Bool)
  /-- The value under the key, after so many have been built. -/
  | obtained (a : α) (built : Nat)
  | refused (full : Full) (built : Nat)
deriving DecidableEq, Repr

/-- The refusal that a reply is. -/
def Reply.refusal? {α : Type} : Reply α → Option Full
  | refused full _ => some full
  | _ => none

/-- The key under which a request may store a value. -/
def Request.stores? {α : Type} : Request α → Option String
  | put key _ => some key
  | getOrInsert key _ => some key
  | _ => none

/-- A key that was given a value, or none. -/
abbrev Change (α : Type) := String × Option α

/-- What a request has changed, by its reply. -/
def Change.of? {α : Type} : Request α × Reply α → Option (Change α)
  | (.put key a, .stored) => some (key, some a)
  | (.getOrInsert key _, .obtained a (_ + 1)) => some (key, some a)
  | (.remove key, _) => some (key, none)
  | _ => none

/-- The value most recently stored under a key, unless the key has been removed since. -/
def held {α : Type} (key : String) (log : List (Request α × Reply α)) : Option α :=
  ((log.filterMap Change.of?).filter fun c => c.1 = key).getLast?.bind (·.2)

variable {α : Type}

/-- Answers a request that comes through a handle. -/
def serve (m : BoundedMap α) (h : Handle) : Request α → Reply α × BoundedMap α
  | .put key a =>
    match m.put key a with
    | .ok m' => (.stored, m')
    | .error full => (.refused full 0, m)
  | .get key => (.value (m.get? key), m)
  | .remove key => (.removed, m.remove key)
  | .contains key => (.present (if h.isPlain then m.contains key else (m.get? key).isSome), m)
  | .getOrInsert key make =>
    let access := if h.isPlain then m.getOrInsert key make else m.getOrPut key make
    match access.outcome with
    | .ok a => (.obtained a access.built, access.map)
    | .error full => (.refused full access.built, access.map)

/-- Answers requests one after the other, keeping a log. -/
def serveAll (m : BoundedMap α) (requests : List (Handle × Request α)) :
    List (Request α × Reply α) × BoundedMap α :=
  requests.foldl (fun (log, m) (h, r) => (log ++ [(r, (m.serve h r).1)], (m.serve h r).2)) ([], m)

theorem serveAll_concat (m : BoundedMap α) (requests : List (Handle × Request α)) (h : Handle)
    (r : Request α) :
    m.serveAll (requests ++ [(h, r)]) =
      ((m.serveAll requests).1 ++ [(r, ((m.serveAll requests).2.serve h r).1)],
        ((m.serveAll requests).2.serve h r).2) := by
  simp [serveAll]

/-! ## One request -/

variable {m : BoundedMap α} {key : String} {h : Handle} {r : Request α}

def store (m : BoundedMap α) (key : String) (a : α) : BoundedMap α :=
  { m with entries := m.entries.insert key a }

/-- There is no entry for the key, and no room for one. -/
def excludes (m : BoundedMap α) (key : String) : Bool := (m.get? key).isNone && m.isFull

theorem excludes_iff : m.excludes key = true ↔ m.get? key = none ∧ m.capacity ≤ m.size := by
  simp [excludes, isFull]

theorem put_eq (m : BoundedMap α) (key : String) (a : α) :
    m.put key a = if m.excludes key then .error ⟨m.capacity⟩ else .ok (m.store key a) := by
  have hcontains : (!m.contains key) = (m.get? key).isNone := Option.not_isSome _
  unfold put excludes
  rw [hcontains]
  rfl

/-- Both ways of getting or inserting come to this, but for the values built in vain. -/
theorem getOrInsert_eq (m : BoundedMap α) (key : String) (make : α) :
    m.getOrInsert key make = if m.excludes key then ⟨.error ⟨m.capacity⟩, m, 0⟩
      else match m.get? key with
        | some a => ⟨.ok a, m, 0⟩
        | none => ⟨.ok make, m.store key make, 1⟩ := by
  unfold getOrInsert excludes
  cases m.get? key with
  | some a => simp
  | none => simp [store]

theorem getOrPut_eq (m : BoundedMap α) (key : String) (make : α) :
    m.getOrPut key make = if m.excludes key then ⟨.error ⟨m.capacity⟩, m, 1⟩
      else match m.get? key with
        | some a => ⟨.ok a, m, 0⟩
        | none => ⟨.ok make, m.store key make, 1⟩ := by
  unfold getOrPut
  rw [put_eq]
  unfold excludes
  cases m.get? key with
  | some a => simp
  | none => cases m.isFull <;> simp

theorem serve_getOrInsert (m : BoundedMap α) (h : Handle) (key : String) (make : α) :
    m.serve h (.getOrInsert key make) =
      if m.excludes key then (.refused ⟨m.capacity⟩ (if h.isPlain then 0 else 1), m)
      else match m.get? key with
        | some a => (.obtained a 0, m)
        | none => (.obtained make 1, m.store key make) := by
  simp only [serve, getOrInsert_eq, getOrPut_eq]
  cases m.excludes key <;> cases m.get? key <;> cases h.isPlain <;> rfl

theorem serve_put (m : BoundedMap α) (h : Handle) (key : String) (a : α) :
    m.serve h (.put key a) =
      if m.excludes key then (.refused ⟨m.capacity⟩ 0, m) else (.stored, m.store key a) := by
  simp only [serve, put_eq]
  cases m.excludes key <;> rfl

/-- A request is refused just where it would need an entry for which there is no room. -/
theorem refusal?_serve (m : BoundedMap α) (h : Handle) (r : Request α) :
    (m.serve h r).1.refusal? = if r.stores?.any m.excludes then some ⟨m.capacity⟩ else none := by
  cases r with
  | put key a =>
    rw [serve_put]
    cases hx : m.excludes key <;> simp [Request.stores?, Reply.refusal?, hx]
  | getOrInsert key make =>
    rw [serve_getOrInsert]
    cases hx : m.excludes key with
    | true => simp [Request.stores?, Reply.refusal?, hx]
    | false => cases m.get? key <;> simp [Request.stores?, Reply.refusal?, hx]
  | get key => rfl
  | remove key => rfl
  | contains key => rfl

/-- **What a request can do to a map**: nothing, drop a key, or store a value for a key that has an
entry or room for one. -/
theorem serve_cases (m : BoundedMap α) (h : Handle) (r : Request α) :
    (Change.of? (r, (m.serve h r).1) = none ∧ (m.serve h r).2 = m) ∨
    (∃ key, Change.of? (r, (m.serve h r).1) = some (key, none) ∧
      (m.serve h r).2 = m.remove key) ∨
    ∃ key a, Change.of? (r, (m.serve h r).1) = some (key, some a) ∧
      (m.serve h r).2 = m.store key a ∧ m.excludes key = false := by
  cases r with
  | put key a =>
    rw [serve_put]
    cases hx : m.excludes key with
    | true => exact .inl ⟨rfl, rfl⟩
    | false => exact .inr (.inr ⟨key, a, rfl, rfl, hx⟩)
  | getOrInsert key make =>
    rw [serve_getOrInsert]
    cases hx : m.excludes key with
    | true => exact .inl ⟨rfl, rfl⟩
    | false =>
      cases m.get? key with
      | some a => exact .inl ⟨rfl, rfl⟩
      | none => exact .inr (.inr ⟨key, make, rfl, rfl, hx⟩)
  | get key => exact .inl ⟨rfl, rfl⟩
  | remove key => exact .inr (.inl ⟨key, rfl, rfl⟩)
  | contains key => exact .inl ⟨rfl, rfl⟩

/-! ## Every request -/

variable {log : List (Request α × Reply α)}

/-- The map holds what the log tells, within its capacity, and has one entry for each key. -/
structure Mirrors (capacity : Nat) (log : List (Request α × Reply α)) (m : BoundedMap α) :
    Prop where
  capacity_eq : m.capacity = capacity
  size_le : m.size ≤ capacity
  nodup : m.entries.keys.Nodup
  tells : ∀ key, m.get? key = held key log

theorem held_unchanged {e : Request α × Reply α} (he : Change.of? e = none) (key : String) :
    held key (log ++ [e]) = held key log := by
  simp [held, he]

theorem held_changed {e : Request α × Reply α} {k : String} {a : Option α}
    (he : Change.of? e = some (k, a)) (key : String) :
    held key (log ++ [e]) = if key = k then a else held key log := by
  by_cases hk : key = k
  · subst hk
    simp [held, he]
  · simp [held, he, hk, Ne.symm hk]

theorem mirrors_empty (capacity : Nat) : Mirrors capacity [] (empty capacity : BoundedMap α) where
  capacity_eq := rfl
  size_le := Nat.zero_le _
  nodup := List.nodup_nil
  tells _ := rfl

/-- An entry that is not excluded fits. -/
theorem size_store_le (hsize : m.size ≤ m.capacity) (hx : m.excludes key = false) (a : α) :
    (m.store key a).size ≤ m.capacity := by
  change (m.entries.insert key a).size ≤ m.capacity
  rw [Dict.size_insert]
  split
  · exact hsize
  · next hnew =>
    have hnone : m.get? key = none := by
      change m.entries.get? key = none
      simpa [Dict.contains] using hnew
    have hroom : ¬ m.capacity ≤ m.size := fun hfull => by
      rw [excludes_iff.mpr ⟨hnone, hfull⟩] at hx
      cases hx
    exact Nat.lt_of_not_le hroom

/-- **Every request keeps the log true of the map.** -/
theorem Mirrors.serve {capacity : Nat} (hm : Mirrors capacity log m) (h : Handle) (r : Request α) :
    Mirrors capacity (log ++ [(r, (m.serve h r).1)]) (m.serve h r).2 := by
  rcases m.serve_cases h r with ⟨hnone, hsame⟩ | ⟨k, hgone, hleft⟩ | ⟨k, a, hstored, hleft, hx⟩
  · rw [hsame]
    exact ⟨hm.capacity_eq, hm.size_le, hm.nodup,
      fun key => by rw [held_unchanged hnone, hm.tells]⟩
  · rw [hleft]
    refine ⟨hm.capacity_eq, Nat.le_trans (m.entries.size_erase_le k) hm.size_le,
      Dict.nodup_erase hm.nodup k, fun key => ?_⟩
    rw [held_changed hgone, ← hm.tells]
    exact Dict.get?_erase ..
  · rw [hleft]
    refine ⟨hm.capacity_eq, ?_, Dict.nodup_insert hm.nodup k a, fun key => ?_⟩
    · have hsize := hm.size_le
      rw [← hm.capacity_eq] at hsize ⊢
      exact size_store_le hsize hx a
    · rw [held_changed hstored, ← hm.tells]
      exact Dict.get?_insert ..

theorem serveAll_mirrors (capacity : Nat) (requests : List (Handle × Request α)) :
    Mirrors capacity ((empty capacity).serveAll requests).1
      ((empty capacity).serveAll requests).2 := by
  induction requests using List.reverseRecOn with
  | nil => exact mirrors_empty capacity
  | append_singleton requests q ih =>
    rw [serveAll_concat]
    exact ih.serve q.1 q.2

/-! ## What every request meets -/

/-- The map answers as one of this capacity that holds what the log tells. -/
structure Limited (capacity : Nat) (log : List (Request α × Reply α)) (m : BoundedMap α) :
    Prop where
  bounded : m.size ≤ capacity
  /-- The size is the number of keys for which a value is held. -/
  counted : ∃ keys : List String, keys.Nodup ∧ keys.length = m.size ∧
    ∀ key, key ∈ keys ↔ (held key log).isSome = true
  reads : ∀ h key, (m.serve h (.get key)).1 = .value (held key log)
  finds : ∀ h key, (m.serve h (.contains key)).1 = .present (held key log).isSome
  refuses : ∀ h r full, (m.serve h r).1.refusal? = some full ↔
    full = ⟨capacity⟩ ∧ m.size = capacity ∧ ∃ key, r.stores? = some key ∧ held key log = none
  leaves : ∀ h r full, (m.serve h r).1.refusal? = some full → (m.serve h r).2 = m
  replaces : ∀ h key a, (held key log).isSome = true → (m.serve h (.put key a)).1 = .stored
  obtains : ∀ h key make, (held key log).isSome = true ∨ m.size < capacity →
    (m.serve h (.getOrInsert key make)).1 = match held key log with
      | some a => .obtained a 0
      | none => .obtained make 1

/-- A refused request changes nothing. -/
theorem serve_of_refused {full : Full} (hr : (m.serve h r).1.refusal? = some full) :
    (m.serve h r).2 = m := by
  have hexcluded : r.stores?.any m.excludes = true := by
    rw [refusal?_serve] at hr
    by_contra hn
    rw [if_neg hn] at hr
    cases hr
  cases r with
  | put key a => rw [serve_put, show m.excludes key = true from hexcluded]; rfl
  | getOrInsert key make => rw [serve_getOrInsert, show m.excludes key = true from hexcluded]; rfl
  | get key => cases hexcluded
  | remove key => cases hexcluded
  | contains key => cases hexcluded

theorem Mirrors.excludes_iff {capacity : Nat} (hm : Mirrors capacity log m) (key : String) :
    m.excludes key = true ↔ m.size = capacity ∧ held key log = none := by
  have hsize := hm.size_le
  rw [BoundedMap.excludes_iff, hm.tells, hm.capacity_eq]
  constructor
  · intro ⟨hnone, hfull⟩
    exact ⟨Nat.le_antisymm hsize hfull, hnone⟩
  · intro ⟨hfull, hnone⟩
    exact ⟨hnone, Nat.le_of_eq hfull.symm⟩

theorem Mirrors.includes {capacity : Nat} (hm : Mirrors capacity log m) {key : String}
    (h : (held key log).isSome = true ∨ m.size < capacity) : m.excludes key = false := by
  refine Bool.eq_false_iff.mpr fun hx => ?_
  obtain ⟨hfull, hnone⟩ := (hm.excludes_iff key).mp hx
  cases h with
  | inl hheld => simp [hnone] at hheld
  | inr hroom => exact absurd hfull (Nat.ne_of_lt hroom)

theorem Mirrors.limited {capacity : Nat} (hm : Mirrors capacity log m) :
    Limited capacity log m where
  bounded := hm.size_le
  counted := by
    refine ⟨m.entries.keys, hm.nodup, m.entries.length_keys, fun key => ?_⟩
    rw [Dict.mem_keys, ← hm.tells]
    rfl
  reads h key := congrArg Reply.value (hm.tells key)
  finds h key := by
    rw [← hm.tells]
    unfold BoundedMap.serve
    cases h.isPlain <;> rfl
  refuses h r full := by
    rw [refusal?_serve]
    cases hk : r.stores? with
    | none => simp
    | some key =>
      have hx := hm.excludes_iff key
      simp only [Option.any_some, Option.ite_none_right_eq_some, Option.some.injEq, hx,
        hm.capacity_eq, exists_eq_left']
      constructor
      · intro ⟨⟨hfull, hnone⟩, hcapacity⟩
        exact ⟨hcapacity.symm, hfull, hnone⟩
      · intro ⟨hcapacity, hfull, hnone⟩
        exact ⟨⟨hfull, hnone⟩, hcapacity.symm⟩
  leaves h r full hr := serve_of_refused hr
  replaces h key a hheld := by
    rw [serve_put, hm.includes (.inl hheld)]
    rfl
  obtains h key make hkey := by
    rw [serve_getOrInsert, hm.includes hkey, ← hm.tells]
    cases m.get? key <;> rfl

/-- Both ways of getting or inserting agree but for a value built in vain. -/
theorem getOrPut_agrees (m : BoundedMap α) (key : String) (make : α) :
    (m.getOrPut key make).outcome = (m.getOrInsert key make).outcome ∧
      (m.getOrPut key make).map = (m.getOrInsert key make).map ∧
      (m.getOrInsert key make).built = (if m.contains key || m.isFull then 0 else 1) ∧
      (m.getOrPut key make).built = if m.contains key then 0 else 1 := by
  have hcontains : m.contains key = (m.get? key).isSome := rfl
  rw [getOrInsert_eq, getOrPut_eq, hcontains]
  unfold excludes
  cases m.get? key with
  | some a => simp
  | none => cases m.isFull <;> simp

/-- **A bounded map is a map with a capacity**, through whatever handles it is asked. After any
requests it answers as one that holds what was stored last and not removed since; and for any
content, getting or inserting comes to the same for the map's own way and for the default one. -/
theorem serveAll_limited (capacity : Nat) (requests : List (Handle × Request α)) :
    Limited capacity ((empty capacity).serveAll requests).1
        ((empty capacity).serveAll requests).2 ∧
      ∀ (content : BoundedMap α) (key : String) (make : α),
        (content.getOrPut key make).outcome = (content.getOrInsert key make).outcome ∧
          (content.getOrPut key make).map = (content.getOrInsert key make).map ∧
          (content.getOrInsert key make).built =
            (if content.contains key || content.isFull then 0 else 1) ∧
          (content.getOrPut key make).built = if content.contains key then 0 else 1 :=
  ⟨(serveAll_mirrors capacity requests).limited, getOrPut_agrees⟩

end BoundedMap

end CallGuard
