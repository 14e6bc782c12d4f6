import CallGuard.BoundedMap
import CallGuard.Policy
/-! # The contexts of retry keys and circuits

A ledger numbers every sequence of attempts that it opens and keeps its context; a bounded map says
which sequence is current for a key. A call that counts its attempts here finds or opens the
sequence of its key and has the policy check it. If an attempt is allowed, the call makes it and
settles it with `succeed` or `fail`; else it goes by a copy of the context and lets the key go. Each
of these is a step of its own, and other calls may take theirs in between. Meanwhile the call
remembers the number of its sequence and keeps to that one, even if the key has been given another
by then. -/

namespace CallGuard

abbrev SequenceId := Nat

/-- Contexts by sequence, and the current sequence of each key. -/
structure Ledger where
  contexts : Array Context
  live : BoundedMap SequenceId
deriving Repr

/-- What the steps before an attempt come to. -/
inductive Admission where
  /-- The key is new and there is no room for it. -/
  | full (capacity : Nat)
  /-- The policy refuses, leaving the context like this. -/
  | refused (context : Context)
  /-- The attempt may start, on behalf of this sequence. -/
  | admitted (sequence : SequenceId)
deriving DecidableEq, Repr

structure Setback where
  retryAgain : Bool
  attempts : Nat
deriving DecidableEq, Repr

namespace Ledger

def defaultCapacity : Nat := 4096

def empty (capacity : Nat) : Ledger := ⟨#[], .empty capacity⟩

instance : Inhabited Ledger := ⟨empty defaultCapacity⟩

def context (l : Ledger) (n : SequenceId) : Context := l.contexts[n]?.getD default

def get? (l : Ledger) (key : String) : Option Context := (l.live.get? key).map l.context

def entries (l : Ledger) : List (String × Context) :=
  l.live.entries.entries.map fun e => (e.1, l.context e.2)

def setContext (l : Ledger) (n : SequenceId) (c : Context) : Ledger :=
  { l with contexts := l.contexts.setIfInBounds n c }

/-- Drops a key; its sequence stays, for calls under way. -/
def forget (l : Ledger) (key : String) : Ledger := { l with live := l.live.remove key }

def nextSequence (l : Ledger) : SequenceId := l.contexts.size

def renew (l : Ledger) (key : String) (now : Nat) : Except Full Ledger := do
  let live ← l.live.put key l.nextSequence
  return ⟨l.contexts.push (Context.fresh now), live⟩

/-- The current sequence of a key; a new one where there is none, or where `refresh` asks for it. -/
def sequenceFor (l : Ledger) (key : String) (refresh : Bool) (now : Nat) :
    Except Full (SequenceId × Ledger) :=
  if refresh then do
    let l' ← l.renew key now
    return (l.nextSequence, l')
  else
    let access := l.live.getOrInsert key l.nextSequence
    match access.outcome with
    | .error full => .error full
    | .ok n =>
      let contexts := if access.built = 0 then l.contexts else l.contexts.push (Context.fresh now)
      .ok (n, ⟨contexts, access.map⟩)

/-- Drops the key of a call that succeeded or was refused, unless it is a circuit's. -/
def release (l : Ledger) (policy : Policy) (key : String) : Ledger :=
  if policy.isShared then l else l.forget key

/-- Finds or opens the sequence of a key. -/
def find (l : Ledger) (key : String) (refresh : Bool) (now : Nat) :
    Except Full SequenceId × Ledger × List Event :=
  match l.sequenceFor key refresh now with
  | .error full => (.error full, l, [])
  | .ok (n, l') => (.ok n, l', [])

/-- Asks whether another attempt may start; the sequence keeps what the check leaves. -/
def check (l : Ledger) (policy : Policy) (n : SequenceId) (now : Nat) :
    Bool × Ledger × List Event :=
  let check := policy.check (l.context n) now
  (check.allowed, l.setContext n check.context, check.events)

/-- The steps before an attempt, taken by a call that is not interrupted; a sequence that has to be
opened begins at `created`. -/
def ask (l : Ledger) (policy : Policy) (key : String) (refresh : Bool) (created asked : Nat) :
    Admission × Ledger × List Event :=
  match l.sequenceFor key refresh created with
  | .error full => (.full full.capacity, l, [])
  | .ok (n, l') =>
    let (allowed, l'', events) := l'.check policy n asked
    if allowed then (.admitted n, l'', events)
    else (.refused (l''.context n), l''.release policy key, events)

def succeed (l : Ledger) (policy : Policy) (key : String) : Ledger := l.release policy key

/-- Settles an attempt that failed: counts it for its sequence and asks whether another follows. -/
def fail (l : Ledger) (policy : Policy) (n : SequenceId) (failure : Failure) (now : Nat) :
    Setback × Ledger × List Event :=
  let check := policy.check ((l.context n).fail failure) now
  (⟨check.allowed, check.context.attempts⟩, l.setContext n check.context, check.events)

end Ledger

end CallGuard
