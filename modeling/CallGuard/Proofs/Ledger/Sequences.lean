import CallGuard.Ledger
import CallGuard.Proofs.Circuit.Check
/-! # What the steps of a call do to the key that it uses, and to all others

A key is seen through `current?`: its current sequence with the context of that sequence. In a sound
ledger no two keys have a sequence in common, so a call that asks under one key, and settles the
sequence that it was given, leaves the entries of all other keys as they are. -/

namespace CallGuard

namespace BoundedMap

variable {α : Type}

theorem get?_remove (m : BoundedMap α) (key k : String) :
    (m.remove key).get? k = if k = key then none else m.get? k := Dict.get?_erase ..

end BoundedMap

namespace Ledger

/-- The current sequence of a key, with its context. -/
def current? (l : Ledger) (key : String) : Option (SequenceId × Context) :=
  (l.live.get? key).bind fun n => l.contexts[n]?.map (n, ·)

/-- Every current sequence has been opened, no two keys share one, and every context tells of a
failure if it counts one. -/
structure Sound (l : Ledger) : Prop where
  opened : ∀ {key : String} {n : SequenceId}, l.live.get? key = some n → n < l.contexts.size
  apart : ∀ {key k : String} {n : SequenceId},
    l.live.get? key = some n → l.live.get? k = some n → key = k
  coherent : ∀ {n : SequenceId} {x : Context}, l.contexts[n]? = some x → x.Coherent

theorem sound_empty (capacity : Nat) : (empty capacity).Sound where
  opened h := by cases h
  apart h := by cases h
  coherent h := by simp [empty] at h

/-- The ledger `l'` says of every other key what `l` says of it. -/
def SameElsewhere (key : String) (l l' : Ledger) : Prop :=
  ∀ k, k ≠ key → l'.current? k = l.current? k

theorem SameElsewhere.refl (key : String) (l : Ledger) : SameElsewhere key l l := fun _ _ => rfl

theorem SameElsewhere.trans {key : String} {l l' l'' : Ledger} (h : SameElsewhere key l l')
    (h' : SameElsewhere key l' l'') : SameElsewhere key l l'' :=
  fun k hk => (h' k hk).trans (h k hk)

/-! ## Entries -/

theorem current?_eq_some {l : Ledger} {key : String} {n : SequenceId} {x : Context} :
    l.current? key = some (n, x) ↔ l.live.get? key = some n ∧ l.contexts[n]? = some x := by
  unfold current?
  cases l.live.get? key with
  | none => simp
  | some m =>
    simp only [Option.bind_some, Option.map_eq_some_iff, Option.some.injEq, Prod.mk.injEq]
    constructor
    · rintro ⟨y, hy, rfl, rfl⟩; exact ⟨rfl, hy⟩
    · rintro ⟨rfl, hx⟩; exact ⟨x, hx, rfl, rfl⟩

theorem Sound.get?_eq {l : Ledger} (h : l.Sound) (key : String) :
    l.get? key = (l.current? key).map (·.2) := by
  unfold get? current?
  cases hl : l.live.get? key with
  | none => rfl
  | some n => simp [context, Array.getElem?_eq_getElem (h.opened hl)]

theorem Sound.coherent_get? {l : Ledger} (h : l.Sound) {key : String} {x : Context}
    (hx : l.get? key = some x) : x.Coherent := by
  rw [h.get?_eq] at hx
  obtain ⟨⟨n, y⟩, he, rfl⟩ := Option.map_eq_some_iff.mp hx
  exact h.coherent (current?_eq_some.mp he).2

/-- Which sequence is current for a key is read off its entry. -/
theorem Sound.live_eq {l : Ledger} (h : l.Sound) (key : String) :
    l.live.get? key = (l.current? key).map (·.1) := by
  unfold current?
  cases hl : l.live.get? key with
  | none => rfl
  | some n => simp [Array.getElem?_eq_getElem (h.opened hl)]

/-- A key with a current sequence has an entry. -/
theorem Sound.entry_of_live {l : Ledger} (h : l.Sound) {key : String} {n : SequenceId}
    (hn : l.live.get? key = some n) : ∃ x, l.current? key = some (n, x) :=
  ⟨_, current?_eq_some.mpr ⟨hn, Array.getElem?_eq_getElem (h.opened hn)⟩⟩

theorem Sound.live_congr {l l' : Ledger} (h : l.Sound) (h' : l'.Sound) {key : String}
    (hc : l'.current? key = l.current? key) : l'.live.get? key = l.live.get? key := by
  rw [h'.live_eq, h.live_eq, hc]

/-! ## Writing a context -/

theorem Sound.setContext {l : Ledger} (h : l.Sound) {x : Context} (hx : x.Coherent)
    (n : SequenceId) : (l.setContext n x).Sound where
  opened hk := by simpa [Ledger.setContext] using h.opened hk
  apart hk hk' := h.apart hk hk'
  coherent {m y} hy := by
    simp only [Ledger.setContext, Array.getElem?_setIfInBounds] at hy
    split at hy
    · split at hy
      · cases hy; exact hx
      · cases hy
    · exact h.coherent hy

theorem context_setContext_self {l : Ledger} {n : SequenceId} (h : n < l.contexts.size)
    (x : Context) : (l.setContext n x).context n = x := by simp [context, setContext, h]

theorem context_setContext_other {l : Ledger} {m n : SequenceId} (h : m ≠ n) (x : Context) :
    (l.setContext m x).context n = l.context n := by
  simp [context, setContext, h]

theorem current?_setContext_self {l : Ledger} {key : String} {n : SequenceId} {x : Context}
    (h : l.current? key = some (n, x)) (y : Context) :
    (l.setContext n y).current? key = some (n, y) := by
  obtain ⟨hl, hx⟩ := current?_eq_some.mp h
  obtain ⟨hn, -⟩ := Array.getElem?_eq_some_iff.mp hx
  exact current?_eq_some.mpr ⟨hl, by simp [setContext, hn]⟩

theorem current?_setContext_other {l : Ledger} {key : String} {n : SequenceId}
    (h : l.live.get? key ≠ some n) (y : Context) :
    (l.setContext n y).current? key = l.current? key := by
  change ((l.live.get? key).bind fun m => (l.contexts.setIfInBounds n y)[m]?.map (m, ·)) = _
  unfold current?
  cases hl : l.live.get? key with
  | none => rfl
  | some m =>
    have hm : n ≠ m := by rintro rfl; exact h hl
    simp [Array.getElem?_setIfInBounds, hm]

/-! ## Dropping a key -/

theorem Sound.forget {l : Ledger} (h : l.Sound) (key : String) : (l.forget key).Sound where
  opened {k n} hk := by
    simp only [Ledger.forget, BoundedMap.get?_remove] at hk
    split at hk
    · cases hk
    · exact h.opened hk
  apart {j k n} hj hk := by
    simp only [Ledger.forget, BoundedMap.get?_remove] at hj hk
    split at hj
    · cases hj
    · split at hk
      · cases hk
      · exact h.apart hj hk
  coherent hx := h.coherent hx

theorem current?_forget (l : Ledger) (key k : String) :
    (l.forget key).current? k = if k = key then none else l.current? k := by
  simp only [current?, forget, BoundedMap.get?_remove]
  split <;> rfl

theorem Sound.release {l : Ledger} (h : l.Sound) (policy : Policy) (key : String) :
    (l.release policy key).Sound := by
  unfold Ledger.release
  split
  · exact h
  · exact h.forget key

theorem current?_release_self (l : Ledger) (policy : Policy) (key : String) :
    (l.release policy key).current? key = if policy.isShared then l.current? key else none := by
  unfold release
  split
  · rfl
  · simp [current?_forget]

theorem release_elsewhere (l : Ledger) (policy : Policy) (key : String) :
    SameElsewhere key l (l.release policy key) := by
  intro k hk
  unfold release
  split
  · rfl
  · rw [current?_forget, if_neg hk]

end Ledger

end CallGuard
