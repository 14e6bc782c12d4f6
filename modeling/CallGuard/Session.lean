import CallGuard.Clock
import CallGuard.Ledger
import CallGuard.Resolved
import CallGuard.Shelf
/-! # What guarded calls read and change, and the actions on it

A session holds the clock, the ledgers, the registered interceptors, the strategies resolved so far,
the random words that are left, and what has been observed: pauses, events and lookups of settings.
`ι` names registered interceptors; `γ` is whatever the intercepted calls keep for themselves.

An action without a result is one that never ends. -/

namespace CallGuard

structure Pause where
  /-- The attempt that failed before it. -/
  attempt : Nat
  delay : Duration
  sleeper : Sleeper
deriving DecidableEq, Repr

namespace Pause

def recorded (ps : List Pause) : List Duration :=
  (ps.filter (·.sleeper == .recording)).map (·.delay)

def waited (ps : List Pause) : Duration :=
  ⟨((ps.filter (·.sleeper == .timer)).map (·.delay.nanos)).foldl (· + ·) 0⟩

end Pause

structure Lookups where
  retry : Nat
  circuit : Nat
deriving DecidableEq, Repr

instance : Inhabited Lookups := ⟨⟨0, 0⟩⟩

/-- The state of a run of guarded calls. -/
structure Session (ι γ : Type) where
  clock : Clock
  ledgers : Shelf Ledger
  registries : Shelf (Registry ι)
  resolved : Shelf (Dict Method (Resolved ι))
  lookups : Shelf Lookups
  /-- The number of the next strategy. -/
  made : Nat
  words : Words
  pauses : Array Pause
  events : Array Event
  guest : γ

abbrev Action (ι γ : Type) := StateT (Session ι γ) Option

/-- A call to a method, made on a target with arguments. -/
structure Call (ι γ : Type) where
  method : Method
  target : Target
  arguments : List Json
  /-- The intercepted call itself; it may be made more than once. -/
  proceed : Action ι γ (Except Failure Json)

namespace Session

variable {ι γ : Type}

def begin (guest : γ) : Session ι γ :=
  { clock := Clock.start
    ledgers := Shelf.empty
    registries := Shelf.empty
    resolved := Shelf.empty
    lookups := Shelf.empty
    made := 0
    words := Words.ofList []
    pauses := #[]
    events := #[]
    guest := guest }

end Session

namespace Action

variable {ι γ : Type}

def now : Action ι γ Nat := modifyGet fun s => (s.clock.now, { s with clock := s.clock.read })

def emit (events : List Event) : Action ι γ Unit :=
  modify fun s => { s with events := s.events ++ events }

def moveClock (f : Clock → Clock) : Action ι γ Unit := modify fun s => { s with clock := f s.clock }

/-- Takes a step on a ledger and reports its events. -/
def onLedger {α : Type} (i : Nat) (step : Ledger → α × Ledger × List Event) : Action ι γ α := do
  let (a, ledger, events) := step ((← get).ledgers.get i)
  modify fun s => { s with ledgers := s.ledgers.set i ledger }
  emit events
  return a

/-- Waits before the attempt that follows a failed one. Where the backoff is none there is no pause
at all. -/
def pause (backoff : Backoff) (sleeper : Sleeper) (attempt : Nat) : Action ι γ Unit :=
  modify fun s =>
    match backoff with
    | .none => s
    | b =>
      let (delay, words) := b.delay attempt s.words
      { s with words := words, pauses := s.pauses.push ⟨attempt, delay, sleeper⟩ }

@[simp] theorem run_now (s : Session ι γ) :
    now.run s = some (s.clock.now, { s with clock := s.clock.read }) := rfl

@[simp] theorem run_emit (events : List Event) (s : Session ι γ) :
    (emit events).run s = some ((), { s with events := s.events ++ events }) := rfl

@[simp] theorem run_moveClock (f : Clock → Clock) (s : Session ι γ) :
    (moveClock f).run s = some ((), { s with clock := f s.clock }) := rfl

@[simp] theorem run_onLedger {α : Type} (i : Nat) (step : Ledger → α × Ledger × List Event)
    (s : Session ι γ) :
    (onLedger i step).run s =
      let (a, ledger, events) := step (s.ledgers.get i)
      some (a, { s with ledgers := s.ledgers.set i ledger, events := s.events ++ events }) := rfl

@[simp] theorem run_pause_none (sleeper : Sleeper) (attempt : Nat) (s : Session ι γ) :
    (pause .none sleeper attempt).run s = some ((), s) := rfl

end Action

end CallGuard
