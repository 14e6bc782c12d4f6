import CallGuard.Scenario.Setup
import CallGuard.Settings.Table
/-! # Scenarios: dispatchers that share a session, and steps taken one after the other -/

namespace CallGuard

/-- A dispatcher of a scenario, before it has its places. -/
structure DispatcherSpec where
  settings : SettingsTable
  sleeper : Sleeper
  keys : KeyRule
  ownLedger : Bool
  /-- Whether it has a registry of its own, which nothing is registered in. -/
  ownRegistry : Bool
  noHandlers : Bool
  sharesResolved : Bool
  /-- Whether its plans are answered with rather than carried out. -/
  dryRun : Bool

/-- The `i`-th dispatcher; the places that it shares with no other come after the shared one. -/
def DispatcherSpec.build (spec : DispatcherSpec) (handlers : HandlerSource) (i : Nat) :
    Dispatcher :=
  let ledger := if spec.ownLedger then i + 1 else Play.sharedPlace
  { settings := spec.settings.source
    handlers := if spec.noHandlers then HandlerTable.empty.visible else handlers
    sleeper := spec.sleeper
    executor := if spec.dryRun then .dryRun else .attempting ledger
    keys := spec.keys
    ledger := ledger
    registry := if spec.ownRegistry then i + 1 else Play.sharedPlace
    resolved := if spec.sharesResolved then Play.sharedPlace else i + 1
    lookups := i }

structure Scenario where
  handlers : HandlerTable
  capacity : Nat
  dispatchers : List DispatcherSpec
  registrations : List (String × BehaviourSpec)
  steps : List Step
  patience : Nat

structure ScenarioReport where
  names : List String
  setupEvents : List Event
  steps : List StepReport

namespace Scenario

def setup (s : Scenario) : Setup where
  dispatchers := s.dispatchers.mapIdx fun i d => d.build s.handlers.visible i
  handlers := s.handlers.visible
  patience := s.patience

def play (s : Scenario) : Play ScenarioReport := do
  modify fun session =>
    { session with ledgers := session.ledgers.set Play.sharedPlace (Ledger.empty s.capacity) }
  let setup := s.setup
  s.registrations.forM fun (name, spec) => setup.register name spec
  let setupEvents := (← get).events.toList
  let steps ← s.steps.mapM fun step => setup.report (setup.reply step)
  return ⟨((← get).registries.get Play.sharedPlace).names, setupEvents, steps⟩

/-- The reports on a scenario, unless it never ends. -/
def run (s : Scenario) : Option ScenarioReport :=
  (s.play.run (Session.begin ⟨[], 0, []⟩)).map (·.1)

end Scenario

end CallGuard
