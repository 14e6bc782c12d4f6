import CallGuard.Dispatcher
import CallGuard.Scenario.Play
/-! # What a scenario has at hand, and the replies to its steps

A step denotes an action: `reply` is defined along the step, its script and the steps within, and
the call that it makes takes the actions of its turns one after the other. -/

namespace CallGuard

structure Setup where
  dispatchers : List Dispatcher
  handlers : HandlerSource
  /-- Bounds the attempts of a circuit within one call. -/
  patience : Nat

namespace Setup

/-- What can be seen after a step that began at `before` and made its call `proceeds` times. -/
def observe (setup : Setup) (before after : Session Registered Progress) (proceeds : Nat) :
    Observation :=
  let pauses := after.pauses.toList.drop before.pauses.size
  { proceeds := proceeds
    slept := Pause.recorded pauses
    waited := Pause.waited pauses
    events := after.events.toList.drop before.events.size
    now := after.clock.now
    contexts := (after.ledgers.get Play.sharedPlace).entries
    dispatchers := setup.dispatchers.map fun d =>
      ((after.resolved.get d.resolved).size, after.lookups.get d.lookups) }

def report (setup : Setup) (step : Play Reply) : Play StepReport := do
  let before ← get
  Play.enter
  let reply ← step
  let frame ← Play.leave
  return ⟨reply, setup.observe before (← get) frame.proceeds, frame.nested.reverse⟩

/-- Runs a registered interceptor. A call that is passed on without end visits some dispatcher
twice, so one more pass than there are dispatchers is enough. -/
def interceptWithin (setup : Setup) :
    Nat → Registered → Call Registered Progress → Play Result
  | passes, r, call =>
    match r.behaviour with
    | .tag label => do
      return (← call.once).map fun v => Json.object [("tag", .str label), ("inner", v)]
    | .constant value => return .ok value
    | .twice => do
      let first ← call.proceed
      return (← call.once).map fun v => .arr [.bool first.toBool, v]
    | .fail e => return .error e
    | .guarded g => g.invoke setup.patience call
    | .forward i =>
      match passes, setup.dispatchers[i]? with
      | passes + 1, some d => d.dispatch setup.patience (setup.interceptWithin passes) call
      | _, _ => failure

def intercept (setup : Setup) (r : Registered) (call : Call Registered Progress) : Play Result :=
  setup.interceptWithin (setup.dispatchers.length + 1) r call

def dispatch (setup : Setup) (i : Nat) (call : Call Registered Progress) : Play Result :=
  match setup.dispatchers[i]? with
  | some d => d.dispatch setup.patience setup.intercept call
  | none => failure

def build (setup : Setup) : BehaviourSpec → Play Behaviour
  | .ready b => return b
  | .build form policy backoff recoverFor => do
    let (recoverer, events) := match recoverFor with
      | some (target, method) => Recoverer.locate setup.handlers target method
      | none => (none, [])
    Action.emit events
    let terms := Play.sharedTerms policy backoff recoverer
    match form, policy with
    | .stateless, _ => return .guarded (.stateless terms)
    | .stateful rule, _ => return .guarded (.stateful terms rule)
    | .circuit, .circuit c => return .guarded (.circuit terms c.label Play.sharedPlace)
    | .circuit, .attempts _ => failure

def register (setup : Setup) (name : String) (spec : BehaviourSpec) : Play Unit := do
  let behaviour ← setup.build spec
  let s ← get
  let (registry, events) := (s.registries.get Play.sharedPlace).register name
    ⟨s.guest.registrations, behaviour⟩
  set { s with
    registries := s.registries.set Play.sharedPlace registry
    guest := { s.guest with registrations := s.guest.registrations + 1 } }
  Action.emit events

/-- Makes a number of calls, the `i`-th with the argument `i`. -/
def repeatCalls (setup : Setup) (dispatcher count : Nat) (spec : CallSpec)
    (turns : List (List Json → Play CallOutcome)) : Play Reply := do
  let tally ← (List.range count).foldlM
    (fun tally i => do
      Play.enter
      let result ← setup.dispatch dispatcher (Play.call { spec with arguments := [.nat i] } turns)
      let _ ← Play.leave
      return tally.add i result)
    Tally.empty
  return .tally tally ((← get).ledgers.get Play.sharedPlace).live.size

/-- Makes a call a number of times, asking for the strategy after each. -/
def concurrentCalls (setup : Setup) (dispatcher threads : Nat) (spec : CallSpec)
    (turns : List (List Json → Play CallOutcome)) : Play Reply := do
  match setup.dispatchers[dispatcher]? with
  | none => failure
  | some d =>
    let made ← (List.range threads).mapM fun _ => do
      let result ← setup.dispatch dispatcher (Play.call spec turns)
      let number ← match ← d.resolve spec.method spec.target with
        | .ok r => some <$> Play.showStrategy r.number
        | .error _ => pure none
      return (result, number)
    return .concurrent (made.filterMap (·.2)).eraseDups.length (made.map (·.1)).eraseDups

mutual

def reply (setup : Setup) : Step → Play Reply
  | .dispatch i spec script =>
    return .result (← setup.dispatch i (Play.call spec (setup.turns script)))
  | .resolve i spec =>
    match setup.dispatchers[i]? with
    | none => failure
    | some d => do
      match ← d.resolve spec.method spec.target with
      | .ok r => return .strategy (.ok (← Play.view r))
      | .error e => return .strategy (.error e)
  | .execute policy backoff recovers key spec script => do
    let (recoverer, events) :=
      if recovers then Recoverer.locate setup.handlers spec.target spec.method else (none, [])
    Action.emit events
    let terms := Play.sharedTerms policy backoff recoverer
    return .result
      (← Execution.run setup.patience ⟨terms, key⟩ (Play.call spec (setup.turns script)))
  | .invoke name spec script => do
    match ((← get).registries.get Play.sharedPlace).resolve name with
    | .error e => return .unknownName e
    | .ok r => return .invoked (← setup.intercept r (Play.call spec (setup.turns script))) r.number
  | .repeated i count spec script => setup.repeatCalls i count spec (setup.turns script)
  | .concurrent i threads spec script => setup.concurrentCalls i threads spec (setup.turns script)
  | .advance step => do
    Action.moveClock (·.advance step)
    return .nothing
  | .setClock millis => do
    Action.moveClock (·.set millis)
    return .nothing
  | .register name spec => do
    setup.register name spec
    return .names ((← get).registries.get Play.sharedPlace).names
  | .lookup name => do
    match ((← get).registries.get Play.sharedPlace).resolve name with
    | .error e => return .unknownName e
    | .ok r => return .registration r.number
  | .inspect i keys =>
    match setup.dispatchers[i]? with
    | none => failure
    | some d => do
      let s ← get
      return .inspected (s.registries.get d.registry).names (keys.map (s.ledgers.get d.ledger).get?)
  | .forget key => do
    Action.onLedger Play.sharedPlace fun l => ((), l.forget key, [])
    return .nothing
  | .seed key => do
    let now ← Action.now
    return .stored (← Action.onLedger Play.sharedPlace fun l =>
      match l.renew key now with
      | .ok l' => (true, l', [])
      | .error _ => (false, l, []))
  | .unbuilt e => return .unbuilt e

def nested (setup : Setup) : List Step → Play Unit
  | [] => return ()
  | step :: rest => do
    Play.keepReport (← setup.report (setup.reply step))
    setup.nested rest

def turn (setup : Setup) : Turn → List Json → Play CallOutcome
  | .mk step within outcome, arguments => do
    match step with
    | some d => Action.moveClock (·.advance d)
    | none => pure ()
    setup.nested within
    return outcome.getD (.ok (.arr arguments))

def turns (setup : Setup) : List Turn → List (List Json → Play CallOutcome)
  | [] => []
  | t :: rest => setup.turn t :: setup.turns rest

end

end Setup

end CallGuard
