import Mathlib.Data.List.Induction
import CallGuard.Proofs.Ledger.Sequences
/-! # What other calls leave of a failure before it is copied

A call takes its steps on a ledger one by one, and any number of other calls may take theirs in
between, so what happens to the ledger meanwhile is a list of steps. A call that is refused copies
the context of its sequence after the check, when such a list has been taken. The failure that the
check has left is gone by then if and only if some check has begun a new window for the sequence,
and no failure has been counted there since (`Emptied`, `last_after_eq_none`). -/

namespace CallGuard

namespace Circuit

/-- The timeout that the context is under is over, so that a check begins a new window. -/
def Renews (c : Circuit) (x : Context) (now : Nat) : Prop :=
  if c.attempts.allows x then age x now > c.openTimeout
  else if x.isOpen then age x now > c.resetTimeout
  else ¬ age x now < c.openTimeout

/-- A check takes a failure away by beginning a new window, and in no other way. -/
theorem last_check_eq_none {c : Circuit} {x : Context} {now : Nat} :
    (c.check x now).context.last = none ↔ c.Renews x now ∨ x.last = none := by
  have hcheck := c.checked x now
  generalize c.check x now = check at hcheck ⊢
  cases hcheck with
  | inWindow ha ht | staysOpen ha _ ht | opens ha _ ht => simp_all [Renews]
  | pastWindow ha ht | closes ha _ ht | spreadOut ha _ ht => simp_all [Renews, Context.restart]

end Circuit

namespace Policy

/-- An attempt limit has no windows. -/
def Renews : Policy → Context → Nat → Prop
  | .attempts _, _, _ => False
  | .circuit c, x, now => c.Renews x now

theorem last_check_eq_none {p : Policy} {x : Context} {now : Nat} :
    (p.check x now).context.last = none ↔ p.Renews x now ∨ x.last = none := by
  cases p with
  | attempts limit => simp [check, Renews]
  | circuit c => exact Circuit.last_check_eq_none

end Policy

namespace Ledger

/-- What a call does to a ledger while no other call is at it. -/
inductive Step where
  | finds (key : String) (refresh : Bool) (now : Nat)
  | checks (policy : Policy) (sequence : SequenceId) (now : Nat)
  | copies (sequence : SequenceId)
  | releases (policy : Policy) (key : String)
  | fails (policy : Policy) (sequence : SequenceId) (failure : Failure) (now : Nat)

def step (l : Ledger) : Step → Ledger
  | .finds key refresh now => (l.find key refresh now).2.1
  | .checks policy n now => (l.check policy n now).2.1
  | .copies _ => l
  | .releases policy key => l.release policy key
  | .fails policy n f now => (l.fail policy n f now).2.1

def after (l : Ledger) (steps : List Step) : Ledger := steps.foldl step l

variable {l l' : Ledger} {n : SequenceId}

/-! ## Where contexts change -/

/-- A sequence is opened with a new context, and no other context changes. -/
theorem contexts_sequenceFor {key : String} {refresh : Bool} {now : Nat}
    (hs : l.sequenceFor key refresh now = .ok (n, l')) :
    l'.contexts = l.contexts ∨ l'.contexts = l.contexts.push (Context.fresh now) := by
  unfold sequenceFor renew at hs
  cases refresh with
  | true =>
    cases hput : l.live.put key l.nextSequence with
    | error full => rw [hput] at hs; cases hs
    | ok live =>
      rw [hput] at hs
      cases hs
      exact .inr rfl
  | false =>
    rw [if_neg nofun] at hs
    dsimp only at hs
    split at hs
    · cases hs
    · cases hs
      dsimp only
      split
      · exact .inl rfl
      · exact .inr rfl

theorem contexts_find (l : Ledger) (key : String) (refresh : Bool) (now : Nat) :
    (l.find key refresh now).2.1.contexts = l.contexts ∨
      (l.find key refresh now).2.1.contexts = l.contexts.push (Context.fresh now) := by
  unfold find
  split
  · exact .inl rfl
  · next hs => exact contexts_sequenceFor hs

theorem contexts_release (l : Ledger) (policy : Policy) (key : String) :
    (l.release policy key).contexts = l.contexts := by
  unfold release
  split <;> rfl

theorem context_congr (h : l'.contexts = l.contexts) (n : SequenceId) :
    l'.context n = l.context n := by
  unfold context
  rw [h]

theorem context_find (hn : n < l.contexts.size) (key : String) (refresh : Bool) (now : Nat) :
    (l.find key refresh now).2.1.context n = l.context n := by
  rcases l.contexts_find key refresh now with h | h
  · exact context_congr h n
  · simp [context, h, Array.getElem?_push, Nat.ne_of_lt hn]

/-- No sequence is ever given up. -/
theorem size_le_step (l : Ledger) (s : Step) : l.contexts.size ≤ (l.step s).contexts.size := by
  cases s with
  | finds key refresh now =>
    rcases l.contexts_find key refresh now with h | h <;> simp [step, h]
  | checks | fails => simp [step, check, fail, setContext]
  | copies => exact Nat.le_refl _
  | releases policy key => exact Nat.le_of_eq (congrArg _ (l.contexts_release policy key).symm)

theorem size_le_after (l : Ledger) (steps : List Step) :
    l.contexts.size ≤ (l.after steps).contexts.size := by
  induction steps generalizing l with
  | nil => exact Nat.le_refl _
  | cons s steps ih => exact Nat.le_trans (l.size_le_step s) (ih (l.step s))

/-! ## Where failures come and go -/

/-- The step counts a failure for the sequence. -/
def Step.Counts (n : SequenceId) : Step → Prop
  | .fails _ m _ _ => m = n
  | _ => False

/-- The step begins a new window for the sequence. -/
def Renews (l : Ledger) (n : SequenceId) : Step → Prop
  | .checks policy m now => m = n ∧ policy.Renews (l.context n) now
  | .fails policy m f now => m = n ∧ policy.Renews ((l.context n).fail f) now
  | _ => False

/-- One of the steps begins a new window for the sequence, and none after it counts a failure. -/
def Emptied (l : Ledger) (n : SequenceId) (steps : List Step) : Prop :=
  ∃ before s later, steps = before ++ s :: later ∧ (l.after before).Renews n s ∧
    ∀ s' ∈ later, ¬ s'.Counts n

theorem emptied_concat {steps : List Step} {s : Step} : l.Emptied n (steps ++ [s]) ↔
    (l.after steps).Renews n s ∨ ¬ s.Counts n ∧ l.Emptied n steps := by
  constructor
  · rintro ⟨before, s', later, hsplit, hrenews, hlater⟩
    rcases later.eq_nil_or_concat with rfl | ⟨later, last, rfl⟩
    · obtain ⟨rfl, heq⟩ := List.append_inj' hsplit rfl
      cases heq
      exact .inl hrenews
    · rw [List.concat_eq_append, ← List.cons_append, ← List.append_assoc] at hsplit
      obtain ⟨rfl, heq⟩ := List.append_inj' hsplit rfl
      cases heq
      rw [List.concat_eq_append, List.forall_mem_append] at hlater
      exact .inr ⟨hlater.2 s (List.mem_singleton_self s), before, s', later, rfl, hrenews, hlater.1⟩
  · rintro (hrenews | ⟨hs, before, s', later, rfl, hrenews, hlater⟩)
    · exact ⟨steps, s, [], rfl, hrenews, List.forall_mem_nil _⟩
    · exact ⟨before, s', later ++ [s], by simp, hrenews,
        List.forall_mem_append.mpr ⟨hlater, List.forall_mem_singleton.mpr hs⟩⟩

/-- After a step there is no failure if it begins a new window, or if there was none and the step
counts none. -/
theorem last_step_eq_none (hn : n < l.contexts.size) (s : Step) :
    ((l.step s).context n).last = none ↔
      l.Renews n s ∨ ¬ s.Counts n ∧ (l.context n).last = none := by
  cases s with
  | finds key refresh now => simp [step, Renews, Step.Counts, context_find hn]
  | copies m => simp [step, Renews, Step.Counts]
  | releases policy key =>
    simp [step, Renews, Step.Counts, context_congr (l.contexts_release policy key)]
  | checks policy m now =>
    by_cases hm : m = n
    · subst hm
      simp [step, check, Renews, Step.Counts, context_setContext_self hn,
        Policy.last_check_eq_none]
    · simp [step, check, Renews, Step.Counts, context_setContext_other hm, hm]
  | fails policy m f now =>
    by_cases hm : m = n
    · subst hm
      simp [step, fail, Renews, Step.Counts, context_setContext_self hn,
        Policy.last_check_eq_none, Context.fail]
    · simp [step, fail, Renews, Step.Counts, context_setContext_other hm, hm]

/-- **What takes a failure away.** A failure that a sequence has is gone after some steps if and
only if one of them has begun a new window, and none has counted a failure since. -/
theorem last_after_eq_none (hn : n < l.contexts.size) (hlast : (l.context n).last ≠ none)
    (steps : List Step) : ((l.after steps).context n).last = none ↔ l.Emptied n steps := by
  induction steps using List.reverseRecOn with
  | nil =>
    refine iff_of_false hlast ?_
    rintro ⟨before, s, later, hsplit, -⟩
    exact List.append_ne_nil_of_right_ne_nil before (List.cons_ne_nil s later) hsplit.symm
  | append_singleton steps s ih =>
    have hstep : l.after (steps ++ [s]) = (l.after steps).step s := List.foldl_append
    rw [hstep, last_step_eq_none (Nat.lt_of_lt_of_le hn (l.size_le_after steps)), ih,
      emptied_concat]

end Ledger

end CallGuard
