import CallGuard.Duration
import CallGuard.Event
import CallGuard.Failure
/-! # Policies: whether another attempt may start

An attempt limit counts failed attempts and judges the latest failure. A circuit puts a window
around an attempt limit: failures that use it up within the window open the circuit, and an open
circuit admits nothing until its reset timeout is over. Checking a circuit moves its window, so a
check returns the context as it leaves it. -/

namespace CallGuard

/-! ## What is known about a run of attempts -/

/-- The record of one sequence of attempts: those of one call, of one retry key, or of one circuit.
-/
structure Context where
  attempts : Nat
  last : Option Failure
  /-- When the sequence, or the circuit's present window, began: milliseconds on the clock. -/
  started : Nat
  /-- Whether the circuit was open at its latest check. -/
  isOpen : Bool
deriving DecidableEq, Repr, Inhabited

namespace Context

def fresh (now : Nat) : Context := ⟨0, none, now, false⟩

def fail (c : Context) (f : Failure) : Context :=
  { c with attempts := c.attempts + 1, last := some f }

/-- Forgets the attempts and begins a window; the circuit's flag stays. -/
def restart (c : Context) (now : Nat) : Context :=
  { c with attempts := 0, last := none, started := now }

end Context

/-! ## Which failures are worth another attempt -/

/-- A failure type is judged by the nearest of its ancestors that has an entry, an exclusion beating
an inclusion of the same type. A failure whose type has no such ancestor is judged by its cause,
then by its cause's cause; one without any listed ancestor along the chain gets the default. -/
structure Classifier where
  /-- Listed types, and whether their failures are retried. Of two entries for a type the later
  counts. -/
  entries : List (FailureType × Bool)
  /-- What holds for failures without an entry. -/
  fallback : Bool
  /-- Whether causes are looked at. -/
  throughCauses : Bool
deriving DecidableEq, Repr, Inhabited

namespace Classifier

def retryAll : Classifier := ⟨[], true, false⟩

/-- Included types are retried and excluded ones are not; without inclusions the rest is retried. -/
def ofLists (includes excludes : List FailureType) : Classifier :=
  ⟨includes.map (·, true) ++ excludes.map (·, false), includes.isEmpty, true⟩

/-- The entry for exactly this type. -/
def entry? (c : Classifier) (t : FailureType) : Option Bool :=
  (c.entries.reverse.find? (·.1 = t)).map (·.2)

/-- The entry of the nearest listed ancestor. -/
def lookup? (c : Classifier) (t : FailureType) : Option Bool := t.ancestors.findSome? c.entry?

def retries (c : Classifier) (f : Failure) : Bool :=
  let links := if c.throughCauses then f.chain else [f.toLink]
  (links.findSome? fun l => c.lookup? l.kind).getD c.fallback

end Classifier

/-! ## Whether another attempt may start -/

inductive PolicyError where
  /-- The attempt limit has to be positive. -/
  | attemptLimit (limit : Nat)
deriving DecidableEq, Repr

namespace PolicyError

def message : PolicyError → String
  | attemptLimit n => "max_attempts must be > 0 (got " ++ toString n ++ ")"

end PolicyError

/-- A positive number of attempts, and which failures are worth another one. -/
structure AttemptLimit where
  limit : Nat
  classifier : Classifier
  limit_pos : 0 < limit
deriving DecidableEq, Repr

namespace AttemptLimit

def make (limit : Nat) (classifier : Classifier) : Except PolicyError AttemptLimit :=
  if h : 0 < limit then .ok ⟨limit, classifier, h⟩ else .error (.attemptLimit limit)

/-- The limit for lists of included and excluded types; without either every failure is retried. -/
def ofLists (limit : Nat) (includes excludes : List FailureType) :
    Except PolicyError AttemptLimit :=
  make limit <|
    if includes.isEmpty && excludes.isEmpty then Classifier.retryAll
    else Classifier.ofLists includes excludes

def retries (p : AttemptLimit) (f : Failure) : Bool := p.classifier.retries f

/-- Whether another attempt may start: the latest failure is worth one, and one is left. -/
def allows (p : AttemptLimit) (c : Context) : Bool :=
  c.last.all p.retries && decide (c.attempts < p.limit)

end AttemptLimit

structure Circuit where
  attempts : AttemptLimit
  openTimeout : Duration
  resetTimeout : Duration
  label : String
deriving DecidableEq, Repr

/-- The answer of a check, with what it did to the context and what it reports. -/
structure Check where
  allowed : Bool
  context : Context
  events : List Event
deriving DecidableEq, Repr

namespace Circuit

def check (c : Circuit) (context : Context) (now : Nat) : Check :=
  let elapsed := Duration.ofMillis (now - context.started)
  /- records an answer in the context that is left -/
  let settle (allowed : Bool) (left : Context) (events : List Event) : Check :=
    ⟨allowed, { left with isOpen := !allowed }, events⟩
  let restarted := context.restart now
  if c.attempts.allows context then
    settle true (if elapsed > c.openTimeout then restarted else context) []
  else if context.isOpen then
    if elapsed > c.resetTimeout then
      settle (c.attempts.allows restarted) restarted [.circuitCloses c.label]
    else settle false context []
  else if elapsed < c.openTimeout then
    settle false { context with started := now } [.circuitOpens c.label context.attempts]
  else settle (c.attempts.allows restarted) restarted []

end Circuit

inductive Policy where
  | attempts (limit : AttemptLimit)
  | circuit (circuit : Circuit)
deriving DecidableEq, Repr

namespace Policy

def check (p : Policy) (context : Context) (now : Nat) : Check :=
  match p with
  | .attempts limit => ⟨limit.allows context, context, []⟩
  | .circuit c => c.check context now

def limit : Policy → AttemptLimit
  | .attempts l => l
  | .circuit c => c.attempts

/-- Whether the context outlives successes and refusals. -/
def isShared : Policy → Bool
  | .attempts _ => false
  | .circuit _ => true

end Policy

end CallGuard
