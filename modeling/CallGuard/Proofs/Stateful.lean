import CallGuard.Proofs.Turns
/-! # The four exits of a call with a key

A call with a key asks the ledger first. From its answer there are four ways on: no room for the
key, a refusal, and an attempt that succeeds or fails. Each is stated with what it leaves of the
ledger and of the pauses, and with what the calls keep left to the calls. -/

namespace CallGuard

variable {ι γ : Type}

namespace Terms

/-- The pauses made after an attempt that another one follows. -/
def pausesAfter (terms : Terms) (attempt : Nat) (words : Words) : List Pause :=
  match terms.backoff with
  | .none => []
  | b => [⟨attempt, (b.delay attempt words).1, terms.sleeper⟩]

/-- The answer to a call that is refused after a failure: what recovering from the failure comes to,
or else an error. -/
def recovery (terms : Terms) (arguments : List Json) (last : Failure) (otherwise : CallError) :
    Result :=
  match terms.recoverer with
  | some r => (r.recover arguments last).1.mapError .failed
  | none => .error otherwise

/-- The error of a call that is refused after `attempts` failures, `last` the latest. -/
def refusal (terms : Terms) (attempts : Nat) (last : Failure) : CallError :=
  match terms.policy with
  | .circuit c => .circuitOpen c.label
  | .attempts _ => .exhausted attempts last

/-- A refusal is not for want of room. -/
theorem recovery_housed (terms : Terms) (arguments : List Json) (attempts : Nat) (last : Failure)
    (capacity : Nat) :
    terms.recovery arguments last (terms.refusal attempts last) ≠
      .error (.contextsFull capacity) := by
  unfold recovery
  cases terms.recoverer with
  | none =>
    unfold refusal
    cases terms.policy <;> simp
  | some r =>
    dsimp only
    cases (r.recover arguments last).1 <;> nofun

/-- A pause tells of the attempt before it, whatever its length. -/
theorem attempt_pausesAfter (terms : Terms) (n : Nat) (words words' : Words) :
    (terms.pausesAfter n words).map (·.attempt) = (terms.pausesAfter n words').map (·.attempt) := by
  unfold pausesAfter
  cases terms.backoff <;> simp only [List.map_nil, List.map_cons]

end Terms

/-! ## The exits of a call with a key -/

namespace Execution

/-- The session when the ledger has answered. -/
def asked (s : Session ι γ) (i : Nat) (l : Ledger) (events : List Event) : Session ι γ :=
  { s with
    clock := s.clock.read.read
    ledgers := s.ledgers.set i l
    events := s.events ++ events }

@[simp] theorem ledger_asked (s : Session ι γ) (i : Nat) (l : Ledger) (events : List Event) :
    (asked s i l events).ledgers.get i = l := Shelf.get_set_self ..

/-- What the ledger answers to a call that begins in a session. -/
def answer (s : Session ι γ) (i : Nat) (policy : Policy) (key : RetryKey) :
    Admission × Ledger × List Event :=
  (s.ledgers.get i).ask policy key.key key.refresh s.clock.now s.clock.read.now

variable {i : Nat} {terms : Terms} {key : RetryKey} {call : Call ι γ} {s : Session ι γ} {l : Ledger}
  {events : List Event}

theorem run_keyed (he : terms.executor = .attempting i) (patience : Nat) (key : RetryKey)
    (call : Call ι γ) : run patience ⟨terms, some key⟩ call = stateful i terms key call := by
  unfold run
  rw [he]

theorem full_returns {capacity : Nat}
    (h : answer s i terms.policy key = (.full capacity, l, events)) :
    (stateful i terms key call).Returns s (.error (.contextsFull capacity))
      (asked s i l events) := by
  unfold answer at h
  simp only [Action.Returns, stateful_uninterrupted, StateT.run_bind, Action.run_now,
    Action.run_onLedger, Option.bind_eq_bind, Option.bind_some, h]
  rfl

/-- What is left to do for a call that has failed for good: to recover from its last failure, or to
answer with an error. The call is not made. -/
def conclude (terms : Terms) (call : Call ι γ) (last : Failure) (otherwise : CallError) :
    Action ι γ Result :=
  match terms.recoverer with
  | some r => recover r call last
  | none => return .error otherwise

theorem conclude_returns (terms : Terms) (call : Call ι γ) (s : Session ι γ) (last : Failure)
    (otherwise : CallError) :
    ∃ t, (conclude terms call last otherwise).Returns s
        (terms.recovery call.arguments last otherwise) t ∧ Interlude s [] t := by
  unfold conclude Terms.recovery
  cases terms.recoverer with
  | some r => exact ⟨_, rfl, .quiet s _ _⟩
  | none => exact ⟨s, rfl, .refl s⟩

/-- A refused call with a failure to tell of is recovered or rejected. -/
theorem refuse_concludes (terms : Terms) (call : Call ι γ) {x : Context} {last : Failure}
    (hx : x.last = some last) :
    refuse terms call x = conclude terms call last (terms.refusal x.attempts last) := by
  unfold refuse conclude Terms.refusal
  rw [hx]
  cases terms.recoverer with
  | some r => rfl
  | none => cases terms.policy <;> rfl

theorem refuse_returns (terms : Terms) (call : Call ι γ) (s : Session ι γ) {x : Context}
    {last : Failure} (hx : x.last = some last) :
    ∃ t, (refuse terms call x).Returns s
        (terms.recovery call.arguments last (terms.refusal x.attempts last)) t ∧
      Interlude s [] t := by
  rw [refuse_concludes terms call hx]
  exact conclude_returns terms call s last _

/-- What is left to do for a refused call that has no failure to tell of. It cannot be recovered; a
circuit rejects it, and under an attempt limit it is made. -/
def unfounded (terms : Terms) (call : Call ι γ) : Action ι γ Result :=
  match terms.policy with
  | .circuit c => return .error (.circuitOpen c.label)
  | .attempts _ => call.once

theorem refuse_unfounded (terms : Terms) (call : Call ι γ) {x : Context} (hx : x.last = none) :
    refuse terms call x = unfounded terms call := by
  unfold refuse unfounded
  rw [hx]
  cases terms.recoverer <;> cases terms.policy <;> rfl

theorem once_returns {outcome : Except Failure Json} {t : Session ι γ}
    (h : call.proceed.Returns s outcome t) :
    call.once.Returns s (outcome.mapError .failed) t := h.bind rfl

theorem refuse_ends (terms : Terms) (hend : call.proceed.Ends) (x : Context) :
    (refuse terms call x).Ends := by
  intro s
  cases hx : x.last with
  | some last =>
    obtain ⟨t, ht, -⟩ := refuse_returns terms call s hx
    exact ⟨_, t, ht⟩
  | none =>
    rw [refuse_unfounded terms call hx, unfounded]
    split
    · exact ⟨_, s, rfl⟩
    · obtain ⟨outcome, t, ht⟩ := hend s
      exact ⟨_, t, once_returns ht⟩

theorem refused_run (call : Call ι γ) {x : Context}
    (h : answer s i terms.policy key = (.refused x, l, events)) :
    (stateful i terms key call).run s = (refuse terms call x).run (asked s i l events) := by
  unfold answer at h
  simp only [stateful_uninterrupted, StateT.run_bind, Action.run_now, Action.run_onLedger,
    Option.bind_eq_bind, Option.bind_some, h]
  rfl

theorem refused_returns {x : Context} {result : Result} {t : Session ι γ}
    (h : answer s i terms.policy key = (.refused x, l, events))
    (ht : (refuse terms call x).Returns (asked s i l events) result t) :
    (stateful i terms key call).Returns s result t := (refused_run call h).trans ht

theorem rejected_returns (call : Call ι γ) {x : Context} {last : Failure}
    (hx : x.last = some last) (h : answer s i terms.policy key = (.refused x, l, events)) :
    ∃ t, (stateful i terms key call).Returns s
        (terms.recovery call.arguments last (terms.refusal x.attempts last)) t ∧
      t.ledgers.get i = l ∧ t.guest = s.guest ∧ t.pauses = s.pauses := by
  obtain ⟨t, ht, hst⟩ := refuse_returns terms call (asked s i l events) hx
  exact ⟨t, refused_returns h ht, by rw [hst.ledgers]; exact ledger_asked .., hst.guest,
    hst.pauses_eq⟩

theorem admitted_run (call : Call ι γ) {n : SequenceId}
    (h : answer s i terms.policy key = (.admitted n, l, events)) :
    (stateful i terms key call).run s =
      (admitted i terms key n call).run (asked s i l events) := by
  unfold answer at h
  simp only [stateful_uninterrupted, StateT.run_bind, Action.run_now, Action.run_onLedger,
    Option.bind_eq_bind, Option.bind_some, h]
  rfl

theorem success_returns {n : SequenceId} {value : Json} {t : Session ι γ}
    (h : answer s i terms.policy key = (.admitted n, l, events))
    (hc : call.proceed.Returns (asked s i l events) (.ok value) t) :
    ∃ u, (stateful i terms key call).Returns s (.ok value) u ∧
      u.ledgers.get i = (t.ledgers.get i).succeed terms.policy key.key ∧
      u.guest = t.guest ∧ u.pauses = t.pauses := by
  refine ⟨{ t with
    ledgers := t.ledgers.set i ((t.ledgers.get i).succeed terms.policy key.key)
    events := t.events ++ ([] : List Event) }, ?_, Shelf.get_set_self .., rfl, rfl⟩
  exact (admitted_run call h).trans (hc.bind rfl)

/-- The pause after an attempt, where one follows. -/
theorem pause_returns (terms : Terms) (s : Session ι γ) (attempt : Nat) (again : Bool) :
    ∃ t, Action.Returns
        (if again then Action.pause terms.backoff terms.sleeper attempt else pure ()) s () t ∧
      Interlude s (if again then terms.pausesAfter attempt s.words else []) t := by
  cases again with
  | false => exact ⟨s, rfl, .refl s⟩
  | true =>
    unfold Action.pause Terms.pausesAfter
    cases terms.backoff <;> exact ⟨_, rfl, by simp, rfl⟩

theorem failure_returns {n : SequenceId} {f : Failure} {t : Session ι γ}
    (h : answer s i terms.policy key = (.admitted n, l, events))
    (hc : call.proceed.Returns (asked s i l events) (.error f) t) :
    let failed := (t.ledgers.get i).fail terms.policy n f t.clock.now
    ∃ u, (stateful i terms key call).Returns s (.error (.failed f)) u ∧
      u.ledgers.get i = failed.2.1 ∧ u.guest = t.guest ∧
      u.pauses.toList = t.pauses.toList ++
        (if failed.1.retryAgain then terms.pausesAfter failed.1.attempts t.words else []) := by
  intro failed
  let counted : Session ι γ := { t with
    clock := t.clock.read
    ledgers := t.ledgers.set i failed.2.1
    events := t.events ++ failed.2.2 ++
      [Event.attemptFailed call.method key.key failed.1.attempts failed.1.retryAgain] }
  obtain ⟨u, hu, hst⟩ := pause_returns terms counted failed.1.attempts failed.1.retryAgain
  refine ⟨u, ?_, ?_, hst.guest, hst.pauses⟩
  · refine (admitted_run call h).trans (hc.bind ?_)
    unfold Action.Returns at hu ⊢
    simp only [StateT.run_bind, Action.run_now, Action.run_onLedger, Action.run_emit,
      Option.bind_eq_bind, Option.bind_some]
    change StateT.run (if failed.1.retryAgain then _ else _) counted = _
    cases ha : failed.1.retryAgain with
    | true =>
      rw [ha, if_pos rfl] at hu
      simp only [if_true, StateT.run_bind, failed, hu, Option.bind_eq_bind, Option.bind_some]
      rfl
    | false =>
      rw [ha, if_neg (by decide)] at hu
      cases hu
      rfl
  · rw [hst.ledgers]; exact Shelf.get_set_self ..

/-- A call with a key ends if its attempt does. -/
theorem stateful_ends (terms : Terms) (hend : call.proceed.Ends) :
    (stateful i terms key call).Ends := by
  intro s
  rcases h : answer s i terms.policy key with ⟨capacity | x | n, l, events⟩
  · exact ⟨_, _, full_returns h⟩
  · obtain ⟨result, t, ht⟩ := refuse_ends terms hend x (asked s i l events)
    exact ⟨result, t, refused_returns h ht⟩
  · obtain ⟨outcome, t, ht⟩ := hend (asked s i l events)
    cases outcome with
    | ok value =>
      obtain ⟨u, hu, -⟩ := success_returns h ht
      exact ⟨_, u, hu⟩
    | error f =>
      obtain ⟨u, hu, -⟩ := failure_returns h ht
      exact ⟨_, u, hu⟩

end Execution

end CallGuard
