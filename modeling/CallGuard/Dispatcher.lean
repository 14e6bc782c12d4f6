import CallGuard.Execution
/-! # Choosing the strategy of a method and sending calls through it

The first call to a method resolves it: `strategyFor` turns the settings into a strategy, and the
session keeps it for every later call, also when it is that there is nothing to do. An error keeps
nothing. The strategy is bound to what was found then: the registered interceptor, and the recovery
of the target of that first call. -/

namespace CallGuard

/-- A dispatcher: where it looks things up, what it gives the strategies it makes, and the numbers
of the places in the session that it uses. -/
structure Dispatcher where
  settings : SettingsSource
  handlers : HandlerSource
  sleeper : Sleeper
  executor : Executor
  keys : KeyRule
  ledger : Nat
  registry : Nat
  resolved : Nat
  lookups : Nat

structure Resolution (ι : Type) where
  outcome : Except CallError (Strategy ι)
  events : List Event
  askedCircuit : Bool

namespace Dispatcher

variable {ι γ : Type}

def termsFor (d : Dispatcher) (policy : Policy) (backoff : Backoff)
    (recoverer : Option Recoverer) : Terms :=
  ⟨policy, backoff, d.sleeper, recoverer, d.executor⟩

def limitFor (s : AttemptSettings) : Except CallError AttemptLimit :=
  (AttemptLimit.ofLists s.maxAttempts s.effectiveIncludes s.excludes).mapError .invalidSettings

def attemptGuard (d : Dispatcher) (retry : RetrySettings) (recoverer : Option Recoverer) :
    Except CallError Guard := do
  let limit ← limitFor retry.toAttemptSettings
  let terms := d.termsFor (.attempts limit) (Backoff.ofSettings retry.backoff) recoverer
  return if retry.stateful then .stateful terms d.keys else .stateless terms

/-- A circuit as the circuit settings say. It never pauses, and the method's signature is its label
where the settings give none. -/
def circuitGuard (d : Dispatcher) (method : Method) (circuit : CircuitSettings)
    (recoverer : Option Recoverer) : Except CallError Guard := do
  let limit ← limitFor circuit.toAttemptSettings
  let label := circuit.labelName.getD method.signature
  let policy := Policy.circuit ⟨limit, circuit.openTimeout, circuit.resetTimeout, label⟩
  return .circuit (d.termsFor policy .none recoverer) label d.ledger

/-- Makes the guard of a method: a circuit where there are circuit settings and the retry settings
are stateful. -/
def guardFor (d : Dispatcher) (method : Method) (target : Target) (retry : RetrySettings)
    (circuit : Option CircuitSettings) : Except CallError Guard × List Event :=
  let (recoverer, events) := Recoverer.locate d.handlers target method
  match retry.stateful, circuit with
  | true, some c => (d.circuitGuard method c recoverer, events)
  | _, _ => (d.attemptGuard retry recoverer, events)

/-- Resolves a method whose settings are known. A named interceptor comes before everything else. -/
def strategyFor (d : Dispatcher) (registry : Registry ι) (method : Method) (target : Target)
    (retry : RetrySettings) : Resolution ι :=
  match retry.interceptorName with
  | some name =>
    match registry.resolve name with
    | .ok i => ⟨.ok (.explicit name i), [.strategyResolved method .explicit], false⟩
    | .error e => ⟨.error (.ofRegistry e), [], false⟩
  | none =>
    let circuit := if retry.stateful then d.settings.circuit method else none
    let (guard, events) := d.guardFor method target retry circuit
    match guard with
    | .ok g =>
      let strategy := Strategy.guarded g
      ⟨.ok strategy, events ++ [.strategyResolved method strategy.kind], retry.stateful⟩
    | .error e => ⟨.error e, events, retry.stateful⟩

/-- Resolves a method; without settings there is nothing to do. -/
def resolveFresh (d : Dispatcher) (registry : Registry ι) (method : Method) (target : Target) :
    Resolution ι :=
  match d.settings.retry method with
  | none => ⟨.ok .none, [.settingsMissing method], false⟩
  | some retry => d.strategyFor registry method target retry

def countLookups (r : Resolution ι) (n : Lookups) : Lookups :=
  ⟨n.retry + 1, if r.askedCircuit then n.circuit + 1 else n.circuit⟩

def resolve (d : Dispatcher) (method : Method) (target : Target) :
    Action ι γ (Except CallError (Resolved ι)) := do
  let s ← get
  let resolution := d.resolveFresh (s.registries.get d.registry) method target
  let fresh := resolution.outcome.map (⟨s.made, ·⟩)
  let remembered := remember (s.resolved.get d.resolved) method fresh
  if remembered.ran then
    set { s with
      made := s.made + 1
      resolved := s.resolved.set d.resolved remembered.known
      lookups := s.lookups.modify d.lookups (countLookups resolution)
      events := s.events ++ resolution.events }
  else
    Action.emit [.strategyReused method]
  return remembered.outcome

/-- Makes a call under the strategy of its method. `patience` bounds the attempts of a circuit
within one call, and `intercept` runs registered interceptors. -/
def dispatch (patience : Nat) (intercept : ι → Call ι γ → Action ι γ Result) (d : Dispatcher)
    (call : Call ι γ) : Action ι γ Result := do
  match ← d.resolve call.method call.target with
  | .error e => return .error e
  | .ok known =>
    match known.strategy with
    | .none => call.once
    | .guarded guard => guard.invoke patience call
    | .explicit _ i => intercept i call

end Dispatcher

end CallGuard
