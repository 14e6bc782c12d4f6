import CallGuard.Proofs.Repeated
import Mathlib.Order.Bounds.Defs
/-! # Where a call without a key stops

A call without a key makes its attempts at once. Given the outcomes that its attempts come to, the
first one after which no other attempt may follow decides where it stops, how often the guard has
paused by then, and what the call comes to; `stops_at_first` is that statement. Later outcomes do
not matter, and of the earlier ones only how many they are. -/

namespace CallGuard

variable {ι γ : Type}

/-! ## The first position with a property -/

theorem isLeast_zero {P : Nat → Prop} (h : P 0) : IsLeast {n | P n} 0 := ⟨h, fun n _ => n.zero_le⟩

theorem isLeast_succ {P : Nat → Prop} {m : Nat} (h : ¬ P 0) (hm : IsLeast {n | P (n + 1)} m) :
    IsLeast {n | P n} (m + 1) := by
  refine ⟨hm.1, fun n hn => ?_⟩
  cases n with
  | zero => exact absurd hn h
  | succ n => exact Nat.succ_le_succ (hm.2 hn)

/-! ## Where the attempts stop -/

/-- No attempt follows the `n`-th one if it comes to that outcome. -/
def AttemptLimit.Final (p : AttemptLimit) (n : Nat) (outcome : Except Failure Json) : Prop :=
  (∃ value, outcome = .ok value) ∨ (∃ f, outcome = .error f ∧ p.retries f = false) ∨ n = p.limit

theorem AttemptLimit.final_error_iff {p : AttemptLimit} {n : Nat} {f : Failure}
    (hn : n ≤ p.limit) : p.Final n (.error f) ↔ p.again n f = false := by
  unfold AttemptLimit.Final AttemptLimit.again
  rw [Bool.and_eq_false_iff, decide_eq_false_iff_not]
  constructor
  · rintro (⟨_, hvalue⟩ | ⟨_, hf, hno⟩ | rfl)
    · cases hvalue
    · cases hf
      exact .inl hno
    · exact .inr (Nat.lt_irrefl _)
  · rintro (hno | hlast)
    · exact .inr (.inl ⟨f, rfl, hno⟩)
    · exact .inr (.inr (by omega))

/-- What a call without a key answers when it stops at an outcome. -/
def Terms.answer (terms : Terms) (arguments : List Json) : Except Failure Json → Result
  | .ok value => .ok value
  | .error f => terms.recovery arguments f (.failed f)

theorem Terms.answer_recovered {terms : Terms} {r : Recoverer} (h : terms.recoverer = some r)
    (arguments : List Json) (f : Failure) :
    terms.answer arguments (.error f) = (r.recover arguments f).1.mapError .failed := by
  unfold Terms.answer Terms.recovery
  rw [h]

theorem Terms.answer_unrecovered {terms : Terms} (h : terms.recoverer = none)
    (arguments : List Json) (f : Failure) :
    terms.answer arguments (.error f) = .error (.failed f) := by
  unfold Terms.answer Terms.recovery
  rw [h]

/-- Where the attempts stop, and with what pauses and which answer, after `k` of them have failed.
The words are those that the pauses in between begin with. -/
theorem Attempted.stops {terms : Terms} {limit : AttemptLimit} {arguments : List Json} {k : Nat}
    {ps : List Pause} {attempts : List Attempt} {result : Result}
    {outcomes : Nat → Except Failure Json}
    (h : Attempted terms limit arguments k ps attempts result) (hk : k < limit.limit) {b : Nat}
    (hsame : attempts.map (·.outcome) = (List.range' b attempts.length).map outcomes) :
    ∃ m, IsLeast {n | limit.Final (k + 1 + n) (outcomes (b + n))} m ∧ attempts.length = m + 1 ∧
      result = terms.answer arguments (outcomes (b + m)) ∧
      ∃ words : List Words, words.length = m ∧ attempts.map (·.pauses) =
        ps :: (words.zipIdx (k + 1)).map fun e => terms.pausesAfter e.2 e.1 := by
  induction h generalizing b with
  | @succeeded k ended ps value =>
    obtain ⟨hvalue, -⟩ := List.cons.inj hsame
    exact ⟨0, isLeast_zero (.inl ⟨value, hvalue.symm⟩), rfl,
      congrArg (terms.answer arguments) hvalue, [], rfl, rfl⟩
  | @gaveUp k ended ps f hno =>
    obtain ⟨hf, -⟩ := List.cons.inj hsame
    refine ⟨0, isLeast_zero ?_, rfl, congrArg (terms.answer arguments) hf, [], rfl, rfl⟩
    change limit.Final (k + 1) (outcomes b)
    rw [← hf]
    exact (AttemptLimit.final_error_iff hk).mpr hno
  | @retried k ended ps f later result words hyes _ ih =>
    -- the outcome at `b` is not final, and the later attempts go on with the one after it
    obtain ⟨hf, hrest⟩ := List.cons.inj hsame
    obtain ⟨m, hm, hlen, hres, ws, hws, hpauses⟩ :=
      ih (AttemptLimit.lt_of_again hyes) (b := b + 1) hrest
    refine ⟨m + 1, isLeast_succ ?_ ?_, congrArg (· + 1) hlen, ?_, words :: ws,
      congrArg (· + 1) hws, congrArg (ps :: ·) hpauses⟩
    · change ¬ limit.Final (k + 1) (outcomes b)
      rw [← hf, AttemptLimit.final_error_iff hk, hyes]
      exact Bool.noConfusion
    · simpa only [Nat.add_assoc, Nat.add_comm 1] using hm
    · rw [hres, Nat.add_assoc, Nat.add_comm 1]

/-! ## What shows of the turns -/

namespace Turns

variable {call : Call ι γ} {s t : Session ι γ} {attempts : List Attempt}

/-- If the call makes no pauses then all are the guard's. -/
theorem pauses (hcall : ∀ ps, call.proceed.Preserves (·.pauses = ps))
    (h : Turns call s attempts t) :
    t.pauses.toList = s.pauses.toList ++ attempts.flatMap (·.pauses) := by
  induction h with
  | ended hst => exact hst.pauses
  | turn hst hcalled _ ih =>
    rw [ih, hcall _ _ _ _ hcalled rfl, hst.pauses, List.flatMap_cons, List.append_assoc]

theorem follows {outcomes : Nat → Except Failure Json} {taken : γ → Nat}
    (hcall : call.Follows outcomes taken) (h : Turns call s attempts t) :
    attempts.map (·.outcome) = (List.range' (taken s.guest) attempts.length).map outcomes ∧
      taken t.guest = taken s.guest + attempts.length := by
  induction h with
  | ended hst => exact ⟨rfl, congrArg taken hst.guest⟩
  | @turn s t u v ps outcome later hst hcalled _ ih =>
    obtain ⟨w, hw, hcount⟩ := hcall t
    obtain ⟨rfl, rfl⟩ := hcalled.unique hw
    obtain ⟨hlater, hend⟩ := ih
    rw [hcount, hst.guest] at hlater hend
    refine ⟨?_, by rw [hend, List.length_cons]; omega⟩
    rw [List.map_cons, hlater, hst.guest, List.length_cons, List.range'_succ, List.map_cons]

end Turns

/-! ## A whole call -/

variable {terms : Terms} {limit : AttemptLimit} {call : Call ι γ} {i : Nat}
  {outcomes : Nat → Except Failure Json} {taken : γ → Nat}

/-- **A call without a key stops at the first outcome that is final.** Let that be the outcome of
attempt `m + 1`. The call is made `m + 1` times, with one pause after each of the first `m` attempts
(and none at all without a backoff); between the attempts the guard leaves the ledgers alone. The
call answers with the value if the outcome is one, else with what the recoverer makes of this very
failure, or with the failure itself. -/
theorem stops_at_first (patience : Nat) (hp : terms.policy = .attempts limit)
    (he : terms.executor = .attempting i) (h : call.Follows outcomes taken) (s : Session ι γ) :
    ∃ m, IsLeast {n | limit.Final (n + 1) (outcomes (taken s.guest + n))} m ∧
      ∃ result t attempts, (Execution.run patience ⟨terms, none⟩ call).Returns s result t ∧
        Turns call s attempts t ∧ attempts.length = m + 1 ∧
        attempts.map (·.outcome) = (List.range' (taken s.guest) (m + 1)).map outcomes ∧
        taken t.guest = taken s.guest + (m + 1) ∧
        (∃ words : List Words, words.length = m ∧ attempts.map (·.pauses) =
          [] :: (words.zipIdx 1).map fun e => terms.pausesAfter e.2 e.1) ∧
        ((∀ ps, call.proceed.Preserves (·.pauses = ps)) →
          t.pauses.toList = s.pauses.toList ++ attempts.flatMap (·.pauses)) ∧
        (∀ P : Shelf Ledger → Prop, (call.proceed.Preserves fun s => P s.ledgers) →
          P s.ledgers → P t.ledgers) ∧
        (∀ value, outcomes (taken s.guest + m) = .ok value → result = .ok value) ∧
        ∀ f, outcomes (taken s.guest + m) = .error f →
          (∀ r, terms.recoverer = some r →
            result = (r.recover call.arguments f).1.mapError .failed) ∧
          (terms.recoverer = none → result = .error (.failed f)) := by
  obtain ⟨result, t, attempts, ht, hturns, hatt⟩ := Execution.stateless_turns hp h.ends patience s
  obtain ⟨hsame, htaken⟩ := hturns.follows h
  obtain ⟨m, hm, hlen, hres, hpauses⟩ := hatt.stops limit.limit_pos hsame
  rw [hlen] at hsame htaken
  rw [← Execution.run_unkeyed he] at ht
  refine ⟨m, by simpa only [Nat.zero_add, Nat.add_comm 1] using hm, result, t, attempts, ht,
    hturns, hlen, hsame, htaken, hpauses, fun hcall => hturns.pauses hcall,
    fun P hcall => hturns.keeps (Action.indifferent_ledgers P) hcall, fun value hvalue => ?_,
    fun f hf => ⟨fun r hr => ?_, fun hnone => ?_⟩⟩
  · rw [hres, hvalue]
    rfl
  · rw [hres, hf, Terms.answer_recovered hr]
  · rw [hres, hf, Terms.answer_unrecovered hnone]

theorem stops_at_first_hiccup :
    ∃ m, IsLeast {n | AttemptLimit.Final ⟨3, .retryAll, by decide⟩ (n + 1) (hiccup n)} m ∧
      ∃ result t attempts, (Execution.run 0 ⟨threeTimes, none⟩ hiccuping).Returns
          (Session.begin 0) result t ∧ Turns hiccuping (Session.begin 0) attempts t ∧
        attempts.map (·.outcome) = (List.range' 0 (m + 1)).map hiccup ∧
        t.pauses.toList = attempts.flatMap (·.pauses) ∧ t.ledgers = Shelf.empty ∧
        ∀ value, hiccup m = .ok value → result = .ok value := by
  have hfollows : hiccuping.Follows hiccup id := fun s => ⟨_, rfl, rfl⟩
  have hspare (P : Session Unit Nat → Prop)
      (hP : ∀ s n, P s → P { s with guest := n }) : hiccuping.proceed.Preserves P := by
    intro s _ t ht hs
    cases ht
    exact hP s _ hs
  obtain ⟨m, hm, result, t, attempts, ht, hturns, -, hsame, -, -, hpauses, hledgers, hok, -⟩ :=
    stops_at_first 0 (rfl : threeTimes.policy = .attempts ⟨3, .retryAll, by decide⟩) rfl hfollows
      (Session.begin 0)
  have hfrom (n : Nat) : id (Session.begin 0 : Session Unit Nat).guest + n = n := Nat.zero_add n
  simp only [hfrom] at hm hok
  refine ⟨m, hm, result, t, attempts, ht, hturns, hsame, ?_, ?_, hok⟩
  · exact hpauses fun ps => hspare _ fun _ _ h => h
  · exact hledgers (· = Shelf.empty) (hspare _ fun _ _ h => h) rfl

end CallGuard
