import CallGuard.Report
import CallGuard.Session
/-! # Carrying a plan out

Without a key, attempts are made one after the other within the call, with pauses in between, until
one succeeds or the policy allows no further one. With a key, a call makes at most one attempt: it
is admitted by the ledger and settled there, and a refused call is recovered or fails for good. The
steps on the ledger are apart from each other, so that other calls can come in between.

An attempt limit bounds the attempts within a call. A circuit does not, because it may begin a new
window at any check; there, `patience` bounds them, and a call that outlasts it has no result. -/

namespace CallGuard

variable {ι γ : Type}

namespace Call

def once (call : Call ι γ) : Action ι γ Result :=
  return (← call.proceed).mapError .failed

end Call

namespace Execution

def recover (r : Recoverer) (call : Call ι γ) (last : Failure) : Action ι γ Result := do
  let (outcome, events) := r.recover call.arguments last
  Action.emit events
  return outcome.mapError .failed

def giveUp (terms : Terms) (call : Call ι γ) (context : Context) : Action ι γ Result :=
  match context.last with
  | none => call.once
  | some last => do
    Action.emit [.retriesExhausted call.method context.attempts]
    match terms.recoverer with
    | some r => recover r call last
    | none => return .error (.failed last)

/-- Makes attempts until one succeeds or no further one is allowed, at most `rounds` of them. -/
def attempts (terms : Terms) (call : Call ι γ) : Nat → Context → Action ι γ Result
  | 0, _ => failure
  | rounds + 1, context => do
    match ← call.proceed with
    | .ok value => return .ok value
    | .error f =>
      let check := terms.policy.check (context.fail f) (← Action.now)
      Action.emit check.events
      if check.allowed then
        Action.emit [.retrying call.method check.context.attempts]
        Action.pause terms.backoff terms.sleeper check.context.attempts
        attempts terms call rounds check.context
      else giveUp terms call check.context

def rounds (policy : Policy) (patience : Nat) : Nat :=
  match policy with
  | .attempts limit => limit.limit
  | .circuit _ => patience

def stateless (patience : Nat) (terms : Terms) (call : Call ι γ) : Action ι γ Result := do
  attempts terms call (rounds terms.policy patience) (Context.fresh (← Action.now))

def refuse (terms : Terms) (call : Call ι γ) (context : Context) : Action ι γ Result :=
  match terms.recoverer, context.last with
  | some r, some last => recover r call last
  | _, last? =>
    match terms.policy, last? with
    | .circuit c, _ => return .error (.circuitOpen c.label)
    | .attempts _, some last => return .error (.exhausted context.attempts last)
    | .attempts _, none => call.once

/-- What becomes of a call that another attempt has been refused to. It goes by a copy of the
context, which is taken after the check and not along with it. -/
def rejected (ledger : Nat) (terms : Terms) (key : RetryKey) (n : SequenceId) (call : Call ι γ) :
    Action ι γ Result := do
  let copy ← Action.onLedger ledger fun l => (l.context n, l, [])
  Action.onLedger ledger fun l => ((), l.release terms.policy key.key, [])
  refuse terms call copy

def admitted (ledger : Nat) (terms : Terms) (key : RetryKey) (n : SequenceId) (call : Call ι γ) :
    Action ι γ Result := do
  match ← call.proceed with
  | .ok value =>
    Action.onLedger ledger fun l => ((), l.succeed terms.policy key.key, [])
    return .ok value
  | .error f =>
    let failed ← Action.now
    let setback ← Action.onLedger ledger (·.fail terms.policy n f failed)
    Action.emit [.attemptFailed call.method key.key setback.attempts setback.retryAgain]
    if setback.retryAgain then
      Action.pause terms.backoff terms.sleeper setback.attempts
    return .error (.failed f)

def stateful (ledger : Nat) (terms : Terms) (key : RetryKey) (call : Call ι γ) :
    Action ι γ Result := do
  -- a new sequence is dated before the policy is asked, and time may pass in between
  let created ← Action.now
  let asked ← Action.now
  match ← Action.onLedger ledger (·.find key.key key.refresh created) with
  | .error full => return .error (.contextsFull full.capacity)
  | .ok n =>
    if ← Action.onLedger ledger (·.check terms.policy n asked) then
      admitted ledger terms key n call
    else rejected ledger terms key n call

/-- Where nobody comes in between, the steps before an attempt are one. -/
theorem stateful_uninterrupted (ledger : Nat) (terms : Terms) (key : RetryKey) (call : Call ι γ) :
    stateful ledger terms key call = (do
      let created ← Action.now
      let asked ← Action.now
      match ← Action.onLedger ledger (·.ask terms.policy key.key key.refresh created asked) with
      | .full capacity => return .error (.contextsFull capacity)
      | .refused context => refuse terms call context
      | .admitted n => admitted ledger terms key n call) := by
  refine StateT.ext fun s => ?_
  simp only [stateful, StateT.run_bind, Action.run_now, Action.run_onLedger, Option.bind_eq_bind,
    Option.bind_some]
  unfold Ledger.ask Ledger.find
  cases (s.ledgers.get ledger).sequenceFor key.key key.refresh s.clock.now with
  | error full => rfl
  | ok found =>
    obtain ⟨n, l⟩ := found
    cases ha : (l.check terms.policy n s.clock.read.now).1 with
    | true => simp [ha, Shelf.set_set]
    | false => simp [ha, rejected, Shelf.set_set]

def run (patience : Nat) (plan : Plan) (call : Call ι γ) : Action ι γ Result :=
  match plan.executor, plan.key with
  | .dryRun, _ => return .ok (plan.toJson call.method call.arguments)
  | .attempting _, none => stateless patience plan.toTerms call
  | .attempting ledger, some key => stateful ledger plan.toTerms key call

end Execution

namespace Guard

def invoke (patience : Nat) (guard : Guard) (call : Call ι γ) : Action ι γ Result :=
  match guard with
  | .stateless terms => Execution.run patience ⟨terms, none⟩ call
  | .stateful terms rule =>
    match rule.key? call.method call.arguments with
    | some key => Execution.run patience ⟨terms, some key⟩ call
    | none => do
      Action.emit [.keyMissing call.method]
      call.once
  | .circuit terms label _ => Execution.run patience ⟨terms, some ⟨circuitKey label, false⟩⟩ call

end Guard

end CallGuard
