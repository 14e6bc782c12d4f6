import CallGuard.Proofs.Stateful
/-! # A call without a key, under any policy

Its attempts are made one after the other. A failed one is followed by another as long as the policy
allows that, and the policy is asked with the context that its last check has left. `Retried` is
about the failures that were followed by another attempt, and `Course` about what comes after them:
the call is given up or succeeds with the next attempt, or it does not end. There is no other way,
whatever the policy (`attempts_course`): each making of the call is one of these attempts. -/

namespace CallGuard

variable {ι γ : Type}

namespace Circuit

/-- What a check refuses it leaves with its failures. -/
theorem kept_of_refused {c : Circuit} {x : Context} {now : Nat}
    (h : (c.check x now).allowed = false) :
    (c.check x now).context.last = x.last ∧ (c.check x now).context.attempts = x.attempts := by
  have hcheck := c.checked x now
  generalize c.check x now = check at h hcheck ⊢
  cases hcheck with
  | staysOpen | opens => exact ⟨rfl, rfl⟩
  | inWindow | pastWindow | closes | spreadOut => cases h

end Circuit

namespace Policy

variable {p : Policy} {x y : Context}

theorem kept_of_refused {now : Nat} (h : (p.check x now).allowed = false) :
    (p.check x now).context.last = x.last ∧ (p.check x now).context.attempts = x.attempts := by
  cases p with
  | attempts limit => exact ⟨rfl, rfl⟩
  | circuit c => exact Circuit.kept_of_refused h

/-- These attempts failed, and after each of them the policy allowed another one. Counting them and
asking takes the context from the first to the second. -/
inductive Retried (p : Policy) : Context → List Attempt → Context → Prop
  | nil (x : Context) : Retried p x [] x
  | cons {x y : Context} {a : Attempt} {f : Failure} {later : List Attempt} :
      a.outcome = .error f → (p.check (x.fail f) a.ended).allowed = true →
      Retried p (p.check (x.fail f) a.ended).context later y → Retried p x (a :: later) y

theorem Retried.take {failed : List Attempt} (h : p.Retried x failed y) (n : Nat) :
    ∃ z, p.Retried x (failed.take n) z := by
  induction h generalizing n with
  | nil x => exact ⟨x, by rw [List.take_nil]; exact .nil x⟩
  | @cons x y a f later hf hyes _ ih =>
    cases n with
    | zero => exact ⟨x, .nil x⟩
    | succ n =>
      obtain ⟨z, hz⟩ := ih n
      exact ⟨z, .cons hf hyes hz⟩

end Policy

namespace Execution

variable {terms : Terms} {call : Call ι γ} {x y : Context} {rounds : Nat} {s t u : Session ι γ}
  {f : Failure}

/-! ## One attempt -/

/-- A call that is given up after a failure is recovered, or fails with it. -/
theorem giveUp_concludes (terms : Terms) (call : Call ι γ) {last : Failure}
    (hx : x.last = some last) :
    giveUp terms call x = (do
      Action.emit [.retriesExhausted call.method x.attempts]
      conclude terms call last (.failed last)) := by
  unfold giveUp
  rw [hx]
  rfl

theorem giveUp_returns (terms : Terms) (call : Call ι γ) (s : Session ι γ) {last : Failure}
    (hx : x.last = some last) :
    ∃ t, (giveUp terms call x).Returns s
        (terms.recovery call.arguments last (.failed last)) t ∧ Interlude s [] t := by
  let exhausted : Session ι γ :=
    { s with events := s.events ++ [Event.retriesExhausted call.method x.attempts] }
  obtain ⟨t, ht, hst⟩ := conclude_returns terms call exhausted last (.failed last)
  refine ⟨t, ?_, (Interlude.quiet s s.clock exhausted.events).trans hst⟩
  rw [giveUp_concludes terms call hx]
  exact Action.Returns.bind (a := ()) rfl ht

theorem attempts_success {value : Json} (hc : call.proceed.Returns s (.ok value) t) (rounds : Nat) :
    (attempts terms call (rounds + 1) x).Returns s (.ok value) t := hc.bind rfl

theorem attempts_stuck (hc : call.proceed.run s = none) (rounds : Nat) :
    (attempts terms call (rounds + 1) x).run s = none := by
  rw [attempts, StateT.run_bind, hc]
  rfl

/-- The session after a failure, when the policy has been asked about it. -/
def weighed (s : Session ι γ) (events : List Event) : Session ι γ :=
  { s with clock := s.clock.read, events := s.events ++ events }

/-- What follows a failure depends on the answer of the policy. -/
theorem attempts_failure (hc : call.proceed.Returns s (.error f) t) (rounds : Nat) :
    (attempts terms call (rounds + 1) x).run s =
      let check := terms.policy.check (x.fail f) t.clock.now
      StateT.run (if check.allowed then do
        Action.emit [.retrying call.method check.context.attempts]
        Action.pause terms.backoff terms.sleeper check.context.attempts
        attempts terms call rounds check.context
      else giveUp terms call check.context) (weighed t check.events) := by
  rw [attempts, StateT.run_bind, hc]
  rfl

/-- After a failure that no other attempt may follow, the call is given up. -/
theorem attempts_refused (hc : call.proceed.Returns s (.error f) t)
    (hno : (terms.policy.check (x.fail f) t.clock.now).allowed = false) (rounds : Nat) :
    ∃ u, (attempts terms call (rounds + 1) x).Returns s
        (terms.recovery call.arguments f (.failed f)) u ∧ Interlude t [] u := by
  have hlast : (terms.policy.check (x.fail f) t.clock.now).context.last = some f :=
    (Policy.kept_of_refused hno).1
  obtain ⟨u, hu, htu⟩ := giveUp_returns terms call
    (weighed t (terms.policy.check (x.fail f) t.clock.now).events) hlast
  refine ⟨u, ?_, (Interlude.quiet t _ _).trans htu⟩
  rw [Action.Returns, attempts_failure hc]
  dsimp only
  rw [hno]
  exact hu

/-- Any other failure is followed by a pause, and then by the attempts that are left. -/
theorem attempts_retried (hc : call.proceed.Returns s (.error f) t)
    (hyes : (terms.policy.check (x.fail f) t.clock.now).allowed = true) (rounds : Nat) :
    let left := (terms.policy.check (x.fail f) t.clock.now).context
    ∃ u, Interlude t (terms.pausesAfter left.attempts t.words) u ∧
      (attempts terms call (rounds + 1) x).run s = (attempts terms call rounds left).run u := by
  intro left
  let answered := weighed t (terms.policy.check (x.fail f) t.clock.now).events
  let retrying : Session ι γ := { answered with
    events := answered.events ++ [Event.retrying call.method left.attempts] }
  obtain ⟨u, hu, htu⟩ := pause_returns terms retrying left.attempts true
  refine ⟨u, (Interlude.quiet t _ _).trans htu, ?_⟩
  rw [if_pos rfl, Action.Returns] at hu
  rw [attempts_failure hc]
  dsimp only
  rw [if_pos hyes, StateT.run_bind, Action.run_emit, Option.bind_eq_bind, Option.bind_some,
    StateT.run_bind]
  change (StateT.run (Action.pause terms.backoff terms.sleeper left.attempts) retrying).bind _ = _
  rw [hu]
  rfl

/-! ## All attempts -/

/-- What a call comes to that has so many rounds, after the failures that another attempt followed
and with the context that they leave. A call that does not end has no result: it has used up its
rounds, or its next attempt does not end. -/
inductive Course (terms : Terms) (call : Call ι γ) (rounds : Nat) (s : Session ι γ)
    (failed : List Attempt) (x : Context) : Option (Result × Session ι γ) → Prop
  | outlasted {t : Session ι γ} : failed.length = rounds → Turns call s failed t →
      Course terms call rounds s failed x none
  | stuck {t u : Session ι γ} {ps : List Pause} : Turns call s failed t → Interlude t ps u →
      call.proceed.run u = none → Course terms call rounds s failed x none
  | succeeded {t : Session ι γ} {a : Attempt} {value : Json} : a.outcome = .ok value →
      Turns call s (failed ++ [a]) t → Course terms call rounds s failed x (some (.ok value, t))
  | gaveUp {t : Session ι γ} {a : Attempt} {f : Failure} : a.outcome = .error f →
      (terms.policy.check (x.fail f) a.ended).allowed = false → Turns call s (failed ++ [a]) t →
      Course terms call rounds s failed x
        (some (terms.recovery call.arguments f (.failed f), t))

/-- One more failure that another attempt follows. -/
theorem Course.cons {ps : List Pause} {failed : List Attempt} {stop : Option (Result × Session ι γ)}
    (hst : Interlude s ps t) (hc : call.proceed.Returns t (.error f) u)
    (h : Course terms call rounds u failed x stop) :
    Course terms call (rounds + 1) s (⟨ps, .error f, u.clock.now⟩ :: failed) x stop := by
  cases h with
  | outlasted hlength hturns => exact .outlasted (congrArg (· + 1) hlength) (.turn hst hc hturns)
  | stuck hturns hinterlude hnone => exact .stuck (.turn hst hc hturns) hinterlude hnone
  | succeeded hvalue hturns => exact .succeeded hvalue (.turn hst hc hturns)
  | gaveUp hf hno hturns => exact .gaveUp hf hno (.turn hst hc hturns)

/-- **What the attempts of a call come to.** So many of them fail and are followed by another, as
the policy says, and then the call takes one of its courses. -/
theorem attempts_course (terms : Terms) (call : Call ι γ) (rounds : Nat) (x : Context)
    {ps : List Pause} (hst : Interlude s ps t) :
    ∃ failed y, terms.policy.Retried x failed y ∧
      Course terms call rounds s failed y ((attempts terms call rounds x).run t) := by
  -- begun after an interlude, so that the pauses of one round count for the attempt of the next
  induction rounds generalizing x s t ps with
  | zero => exact ⟨[], x, .nil x, .outlasted rfl (.ended (.refl s))⟩
  | succ rounds ih =>
    cases hc : call.proceed.run t with
    | none =>
      rw [attempts_stuck hc]
      exact ⟨[], x, .nil x, .stuck (.ended (.refl s)) hst hc⟩
    | some made =>
      obtain ⟨outcome, u⟩ := made
      cases outcome with
      | ok value =>
        rw [show (attempts terms call (rounds + 1) x).run t = _ from attempts_success hc rounds]
        exact ⟨[], x, .nil x, .succeeded (a := ⟨ps, .ok value, u.clock.now⟩) rfl
          (.turn hst hc (.ended (.refl u)))⟩
      | error f =>
        cases hcheck : (terms.policy.check (x.fail f) u.clock.now).allowed with
        | false =>
          obtain ⟨v, hv, huv⟩ := attempts_refused hc hcheck rounds
          rw [show (attempts terms call (rounds + 1) x).run t = _ from hv]
          exact ⟨[], x, .nil x, .gaveUp (a := ⟨ps, .error f, u.clock.now⟩) rfl hcheck
            (.turn hst hc (.ended huv))⟩
        | true =>
          obtain ⟨v, huv, hsame⟩ := attempts_retried hc hcheck rounds
          obtain ⟨failed, y, hretried, hcourse⟩ := ih _ huv
          rw [hsame]
          exact ⟨⟨ps, .error f, u.clock.now⟩ :: failed, y, .cons rfl hcheck hretried,
            hcourse.cons hst hc⟩

/-- The same of the whole call: it begins with a new context. -/
theorem stateless_course (terms : Terms) (call : Call ι γ) (patience : Nat) (s : Session ι γ) :
    ∃ failed y, terms.policy.Retried (Context.fresh s.clock.now) failed y ∧
      Course terms call (Execution.rounds terms.policy patience) s failed y
        ((stateless patience terms call).run s) :=
  attempts_course terms call _ _ (Interlude.quiet s s.clock.read s.events)

theorem run_unkeyed {i : Nat} (he : terms.executor = .attempting i) (patience : Nat)
    (call : Call ι γ) : run patience ⟨terms, none⟩ call = stateless patience terms call := by
  unfold run
  rw [he]

end Execution

end CallGuard
