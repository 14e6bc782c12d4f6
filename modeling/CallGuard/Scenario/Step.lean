import CallGuard.Session
/-! # The steps of a scenario, and the scripts that its calls follow

Each time a call is made it takes its next turn, the last turn over and over; a turn moves the
clock, then takes steps of its own while the call is under way, then fails or returns. So a scenario
holds calls within calls, to any depth. -/

namespace CallGuard

/-- What a registered interceptor of a scenario does. -/
inductive Behaviour where
  /-- Makes the call and puts a label on its result. -/
  | tag (label : String)
  | constant (value : Json)
  /-- Makes the call twice, and answers with whether the first succeeded and the second's result. -/
  | twice
  | fail (error : CallError)
  | forward (dispatcher : Nat)
  | guarded (guard : Guard)

structure Registered where
  number : Nat
  behaviour : Behaviour

structure CallSpec where
  method : Method
  target : Target
  arguments : List Json

/-- What one making of a call comes to. -/
abbrev CallOutcome := Except Failure Json

inductive GuardForm where
  | stateless
  | stateful (rule : KeyRule)
  | circuit

inductive BehaviourSpec where
  | ready (behaviour : Behaviour)
  /-- A guard; `recoverFor` names the target whose recovery it is bound to. -/
  | build (form : GuardForm) (policy : Policy) (backoff : Backoff)
      (recoverFor : Option (Target × Method))

mutual

inductive Step where
  | dispatch (dispatcher : Nat) (call : CallSpec) (script : List Turn)
  | resolve (dispatcher : Nat) (call : CallSpec)
  /-- Carries a plan out, with the recovery of the call's target if asked for. -/
  | execute (policy : Policy) (backoff : Backoff) (recovers : Bool) (key : Option RetryKey)
      (call : CallSpec) (script : List Turn)
  | invoke (name : String) (call : CallSpec) (script : List Turn)
  /-- Makes a number of calls through a dispatcher, the `i`-th with the argument `i`. -/
  | repeated (dispatcher count : Nat) (call : CallSpec) (script : List Turn)
  /-- Makes a call a number of times at once, asking for the strategy after each. -/
  | concurrent (dispatcher threads : Nat) (call : CallSpec) (script : List Turn)
  | advance (step : Duration)
  | setClock (millis : Nat)
  | register (name : String) (spec : BehaviourSpec)
  | lookup (name : String)
  | inspect (dispatcher : Nat) (keys : List String)
  | forget (key : String)
  | seed (key : String)
  /-- A step that cannot be taken, because its policy cannot be made. -/
  | unbuilt (error : PolicyError)

inductive Turn where
  | mk (step : Option Duration) (nested : List Step) (outcome : Option CallOutcome)

end

end CallGuard
