import CallGuard.Proofs.Unkeyed
/-! # A call without a key, under an attempt limit

Its attempts are made one after the other until one succeeds, or one fails that no other may follow.
Whether another one follows depends on the failure and on the number of attempts made so far, and on
nothing else. `Attempted` says what such a call can come to, attempt by attempt, and
`stateless_turns` that every call whose attempts end comes to that in as many turns. -/

namespace CallGuard

variable {ι γ : Type}

/-- Whether another attempt follows the `n`-th one, which failed. -/
def AttemptLimit.again (p : AttemptLimit) (n : Nat) (f : Failure) : Bool :=
  p.retries f && decide (n < p.limit)

theorem AttemptLimit.lt_of_again {p : AttemptLimit} {n : Nat} {f : Failure}
    (h : p.again n f = true) : n < p.limit := by
  unfold AttemptLimit.again at h
  exact of_decide_eq_true (Bool.and_eq_true_iff.mp h).2

theorem AttemptLimit.allows_fail (p : AttemptLimit) (x : Context) (f : Failure) :
    p.allows (x.fail f) = p.again (x.attempts + 1) f := p.allows_failed rfl

/-- What the attempts of a call come to, after `k` of them have failed and with these pauses before
the next one. -/
inductive Attempted (terms : Terms) (limit : AttemptLimit) (arguments : List Json) :
    Nat → List Pause → List Attempt → Result → Prop
  | succeeded {k ended : Nat} {ps : List Pause} {value : Json} :
      Attempted terms limit arguments k ps [⟨ps, .ok value, ended⟩] (.ok value)
  | gaveUp {k ended : Nat} {ps : List Pause} {f : Failure} : limit.again (k + 1) f = false →
      Attempted terms limit arguments k ps [⟨ps, .error f, ended⟩]
        (terms.recovery arguments f (.failed f))
  | retried {k ended : Nat} {ps : List Pause} {f : Failure} {later : List Attempt}
      {result : Result} (words : Words) : limit.again (k + 1) f = true →
      Attempted terms limit arguments (k + 1) (terms.pausesAfter (k + 1) words) later result →
      Attempted terms limit arguments k ps (⟨ps, .error f, ended⟩ :: later) result

namespace Execution

variable {terms : Terms} {limit : AttemptLimit} {call : Call ι γ} {x : Context}

/-- The limit is asked about the failure and the number of attempts. -/
theorem check_attempts (hp : terms.policy = .attempts limit) (x : Context) (f : Failure)
    (now : Nat) :
    terms.policy.check (x.fail f) now = ⟨limit.again (x.attempts + 1) f, x.fail f, []⟩ := by
  rw [hp, ← limit.allows_fail]
  rfl

/-- As many attempts as are left are enough: the call ends, and comes to what it should. -/
theorem attempts_turns (hp : terms.policy = .attempts limit) (hend : call.proceed.Ends)
    (rounds : Nat) {x : Context} (hleft : x.attempts < limit.limit)
    (hrounds : limit.limit ≤ x.attempts + rounds) {s t : Session ι γ} {ps : List Pause}
    (hst : Interlude s ps t) :
    ∃ result u later, (attempts terms call rounds x).Returns t result u ∧
      Turns call s later u ∧ Attempted terms limit call.arguments x.attempts ps later result := by
  -- begun after an interlude, so that the pauses of one round count for the attempt of the next
  induction rounds generalizing x s t ps with
  | zero => omega
  | succ rounds ih =>
    obtain ⟨outcome, u, hu⟩ := hend t
    cases outcome with
    | ok value =>
      exact ⟨_, u, _, attempts_success hu rounds, .turn hst hu (.ended (.refl u)), .succeeded⟩
    | error f =>
      have hcheck := check_attempts hp x f u.clock.now
      cases hagain : limit.again (x.attempts + 1) f with
      | false =>
        rw [hagain] at hcheck
        obtain ⟨v, hv, huv⟩ := attempts_refused hu (by rw [hcheck]) rounds
        exact ⟨_, v, _, hv, .turn hst hu (.ended huv), .gaveUp hagain⟩
      | true =>
        rw [hagain] at hcheck
        obtain ⟨v, huv, hsame⟩ := attempts_retried hu (by rw [hcheck]) rounds
        rw [hcheck] at huv hsame
        obtain ⟨result, w, later, hw, hturns, hlater⟩ := ih (x := x.fail f)
          (AttemptLimit.lt_of_again hagain) (by change _ ≤ x.attempts + 1 + rounds; omega) huv
        exact ⟨result, w, _, hsame.trans hw, .turn hst hu hturns, .retried u.words hagain hlater⟩

/-- **What a call without a key comes to.** Its attempts, its pauses and its result are those that
the limit, the backoff and the recovery of its terms make of the outcomes of its attempts. -/
theorem stateless_turns (hp : terms.policy = .attempts limit) (hend : call.proceed.Ends)
    (patience : Nat) (s : Session ι γ) :
    ∃ result t attempts, (stateless patience terms call).Returns s result t ∧
      Turns call s attempts t ∧ Attempted terms limit call.arguments 0 [] attempts result := by
  obtain ⟨result, t, attempts, ht, hturns, hatt⟩ := attempts_turns hp hend limit.limit
    (x := Context.fresh s.clock.now) limit.limit_pos (Nat.le_add_left ..)
    (Interlude.quiet s s.clock.read s.events)
  refine ⟨result, t, attempts, Action.Returns.bind (a := s.clock.now) rfl ?_, hturns, hatt⟩
  rw [show rounds terms.policy patience = limit.limit by rw [hp]; rfl]
  exact ht

/-- Under observation the same shows in the notes of the call. -/
theorem stateless_attempted (hp : terms.policy = .attempts limit) (hend : call.proceed.Ends)
    {s : Session ι (Notes γ)} (hg : s.guest.attempts = []) (hm : s.guest.mark = s.pauses.size)
    (patience : Nat) :
    ∃ result t, (stateless patience terms call.watched).Returns s result t ∧
      t.pauses.toList.drop t.guest.mark = [] ∧
      Attempted terms limit call.arguments 0 [] t.guest.attempts result := by
  obtain ⟨result, t, attempts, ht, hturns, hatt⟩ :=
    stateless_turns hp (Call.watched_ends hend) patience s
  obtain ⟨hnotes, hmark⟩ := hturns.noted hend hm
  refine ⟨result, t, ht, ?_, ?_⟩
  · rw [hmark, ← Array.length_toList, List.drop_length]
  · rw [hnotes, hg]
    exact hatt

end Execution

theorem Call.visit_attempted {terms : Terms} {limit : AttemptLimit} {call : Call ι γ} {i : Nat}
    (hp : terms.policy = .attempts limit) (he : terms.executor = .attempting i)
    (hend : call.proceed.Ends) (patience j : Nat) (key : String) (s : Session ι γ) :
    ∃ v t, (call.visit j key (Execution.run patience ⟨terms, none⟩)).Returns s v t ∧
      v.pauses = [] ∧ Attempted terms limit call.arguments 0 [] v.attempts v.result := by
  obtain ⟨result, t, ht, hpau, hatt⟩ :=
    Execution.stateless_attempted (s := s.noting) hp hend rfl rfl patience
  rw [← Execution.run_unkeyed he] at ht
  exact ⟨_, _, Call.visit_returns ht, hpau, hatt⟩

end CallGuard
