import Mathlib.Data.List.Perm.Subperm
import CallGuard.Recovery.Handler
/-! # The types that a type inherits from

One type may be met again and again on the way up from a type, because parents may form a cycle.
The lineage is the way up until that happens, so each type on the way is in it, at the step where it
is met first. The fuel of the walk is enough: a walk that goes on has passed as many types with a
parent as it has made steps, all different, and the table has only so many. -/

namespace CallGuard

namespace HandlerTable

/-- The type that is this many steps up from a type. -/
def ancestor? (t : HandlerTable) (name : String) : Nat → Option String
  | 0 => some name
  | steps + 1 => (t.ancestor? name steps).bind t.parents.get?

variable {t : HandlerTable}

/-- The first of the steps up is the one to the parent. -/
theorem ancestor?_of_parent {name parent : String} (h : t.parents.get? name = some parent)
    (steps : Nat) : t.ancestor? name (steps + 1) = t.ancestor? parent steps := by
  induction steps with
  | zero => exact h
  | succ steps ih =>
    change (t.ancestor? name (steps + 1)).bind _ = (t.ancestor? parent steps).bind _
    rw [ih]

/-! ## The walk -/

/-- Different types that all have a parent are not more than there are parents. -/
theorem length_le_parents {seen : List String} (hseen : seen.Nodup)
    (hparents : ∀ n ∈ seen, ∃ parent, t.parents.get? n = some parent) :
    seen.length ≤ t.parents.size := by
  have hkeys : seen ⊆ t.parents.keys := by
    intro n hn
    obtain ⟨parent, hparent⟩ := hparents n hn
    rw [Dict.mem_keys, hparent]
    rfl
  rw [← Dict.length_keys]
  exact (hseen.subperm hkeys).length_le

theorem walk_cons {seen : List String} {name : String} (h : name ∉ seen) (fuel : Nat) :
    t.walk (fuel + 1) seen name = name :: match t.parents.get? name with
      | none => []
      | some parent => t.walk fuel (name :: seen) parent := by
  cases hparent : t.parents.get? name <;> simp [walk, h, hparent]

/-- What a walk meets is that many steps up. -/
theorem ancestor?_of_walk {fuel : Nat} {seen : List String} {name a : String} {steps : Nat}
    (h : (t.walk fuel seen name)[steps]? = some a) : t.ancestor? name steps = some a := by
  induction fuel generalizing seen name steps with
  | zero => cases h
  | succ fuel ih =>
    by_cases hmem : name ∈ seen
    · rw [walk, if_pos (by simpa using hmem)] at h
      cases h
    · rw [walk_cons hmem] at h
      cases steps with
      | zero => exact h
      | succ steps =>
        cases hparent : t.parents.get? name with
        | none => rw [hparent] at h; cases h
        | some parent =>
          rw [hparent] at h
          rw [ancestor?_of_parent hparent]
          exact ih h

/-- A walk with fuel enough goes on to the parent of what it has met, unless that has been met. -/
theorem walk_goes_on {fuel : Nat} {seen : List String} {name a parent : String} {steps : Nat}
    (hseen : seen.Nodup) (hparents : ∀ n ∈ seen, ∃ parent, t.parents.get? n = some parent)
    (hfuel : t.parents.size < fuel + seen.length)
    (h : (t.walk fuel seen name)[steps]? = some a) (hparent : t.parents.get? a = some parent) :
    (t.walk fuel seen name)[steps + 1]? = some parent ∨
      parent ∈ (t.walk fuel seen name).take (steps + 1) ∨ parent ∈ seen := by
  induction fuel generalizing seen name steps with
  | zero => cases h
  | succ fuel ih =>
    by_cases hmem : name ∈ seen
    · rw [walk, if_pos (by simpa using hmem)] at h
      cases h
    rw [walk_cons hmem] at h ⊢
    cases hnext : t.parents.get? name with
    | none =>
      rw [hnext] at h
      cases steps with
      | zero => cases h; rw [hnext] at hparent; cases hparent
      | succ steps => cases h
    | some next =>
      rw [hnext] at h
      have hseen' : (name :: seen).Nodup := List.nodup_cons.mpr ⟨hmem, hseen⟩
      have hparents' : ∀ n ∈ name :: seen, ∃ parent, t.parents.get? n = some parent :=
        List.forall_mem_cons.mpr ⟨⟨next, hnext⟩, hparents⟩
      have hlength := length_le_parents hseen' hparents'
      rw [List.length_cons] at hlength
      have hfuel' : t.parents.size < fuel + (name :: seen).length := by
        rw [List.length_cons]; omega
      cases steps with
      | zero =>
        obtain rfl : name = a := Option.some.inj h
        obtain rfl : next = parent := Option.some.inj (hnext.symm.trans hparent)
        by_cases hmet : next ∈ name :: seen
        · rcases List.mem_cons.mp hmet with hself | hmet
          · exact .inr (.inl (hself ▸ .head _))
          · exact .inr (.inr hmet)
        · -- there is fuel for one more step at least
          obtain ⟨fuel, rfl⟩ : ∃ more, fuel = more + 1 := ⟨fuel - 1, by omega⟩
          left
          dsimp only
          rw [walk_cons hmet]
          rfl
      | succ steps =>
        rcases ih hseen' hparents' hfuel' h with hgoes | hmet | hmet
        · exact .inl hgoes
        · exact .inr (.inl (List.mem_cons_of_mem _ hmet))
        · rcases List.mem_cons.mp hmet with rfl | hmet
          · exact .inr (.inl (.head _))
          · exact .inr (.inr hmet)

/-! ## The lineage -/

variable {name a : String} {steps : Nat}

theorem ancestor?_of_lineage (h : (t.lineage name)[steps]? = some a) :
    t.ancestor? name steps = some a := ancestor?_of_walk h

/-- **Each type on the way up is in the lineage**, no later than it is met. -/
theorem lineage_of_ancestor? (h : t.ancestor? name steps = some a) :
    ∃ first ≤ steps, (t.lineage name)[first]? = some a := by
  induction steps generalizing a with
  | zero =>
    cases h
    refine ⟨0, Nat.le_refl 0, ?_⟩
    rw [lineage, walk_cons List.not_mem_nil]
    rfl
  | succ steps ih =>
    obtain ⟨b, hb, hparent⟩ := Option.bind_eq_some_iff.mp h
    obtain ⟨first, hfirst, hmet⟩ := ih hb
    rcases walk_goes_on List.nodup_nil (List.forall_mem_nil _) (Nat.lt_succ_self _) hmet hparent
      with hnext | hbefore | hnone
    · exact ⟨first + 1, Nat.succ_le_succ hfirst, hnext⟩
    · obtain ⟨earlier, hearlier, hat⟩ := List.getElem_of_mem hbefore
      have hlt : earlier < first + 1 :=
        Nat.lt_of_lt_of_le hearlier (List.length_take_le ..)
      rw [List.getElem_take] at hat
      exact ⟨earlier, by omega, List.getElem?_eq_some_iff.mpr ⟨_, hat⟩⟩
    · cases hnone

end HandlerTable

end CallGuard
