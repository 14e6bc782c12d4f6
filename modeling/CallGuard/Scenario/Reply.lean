import CallGuard.Scenario.Step
/-! # The answers to the steps of a scenario, and what can be seen after each -/

namespace CallGuard

structure StrategyView where
  /-- Strategies are numbered in the order in which answers first show them. -/
  number : Nat
  strategy : Strategy Registered
  /-- Whether the circuit was open at its latest check. -/
  isOpen : Bool

structure Tally where
  /-- How many calls succeeded, and how many failed in each way. -/
  counts : Dict (Option ErrorKind) Nat
  /-- The error that was the first of its kind latest, and the number of its call. -/
  lastNew : Option (Nat × CallError)

namespace Tally

def empty : Tally := ⟨Dict.empty, none⟩

def add (tally : Tally) (i : Nat) (r : Result) : Tally :=
  let kind := match r with
    | .ok _ => none
    | .error e => some e.kind
  let lastNew := match r with
    | .error e => if tally.counts.contains kind then tally.lastNew else some (i, e)
    | .ok _ => tally.lastNew
  ⟨tally.counts.insert kind ((tally.counts.get? kind).getD 0 + 1), lastNew⟩

end Tally

inductive Reply where
  | nothing
  | result (result : Result)
  | strategy (outcome : Except CallError StrategyView)
  | invoked (result : Result) (registration : Nat)
  | registration (number : Nat)
  | names (names : List String)
  | inspected (names : List String) (held : List (Option Context))
  | stored (ok : Bool)
  | tally (tally : Tally) (live : Nat)
  | concurrent (instances : Nat) (results : List Result)
  | unknownName (error : RegistryError)
  | unbuilt (error : PolicyError)

structure Observation where
  proceeds : Nat
  slept : List Duration
  waited : Duration
  events : List Event
  now : Nat
  contexts : List (String × Context)
  /-- For each dispatcher, how many methods it keeps resolved, and its lookups. -/
  dispatchers : List (Nat × Lookups)

/-- The report on a step and on the steps taken within it. -/
structure StepReport where
  reply : Reply
  seen : Observation
  nested : List StepReport

end CallGuard
