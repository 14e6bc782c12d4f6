import CallGuard.Scenario.Reply
/-! # The actions of a scenario

The calls of a scenario keep the steps under way, innermost first, each with the number of times it
has made its call and the reports on the steps taken within. -/

namespace CallGuard

structure Frame where
  proceeds : Nat
  /-- The reports on the steps within, latest first. -/
  nested : List StepReport

structure Progress where
  /-- The steps under way, innermost first. -/
  frames : List Frame
  registrations : Nat
  /-- The strategies that answers have shown, in order. -/
  shown : List Nat

abbrev Play := Action Registered Progress

namespace Play

/-- The place of the shared ledger, of the shared registry and of the shared resolved methods. -/
def sharedPlace : Nat := 0

/-- Terms that keep their contexts in the shared ledger and note their pauses. -/
def sharedTerms (policy : Policy) (backoff : Backoff) (recoverer : Option Recoverer) : Terms :=
  ⟨policy, backoff, .recording, recoverer, .attempting sharedPlace⟩

def modifyProgress (f : Progress → Progress) : Play Unit :=
  modify fun s => { s with guest := f s.guest }

def enter : Play Unit := modifyProgress fun p => { p with frames := ⟨0, []⟩ :: p.frames }

def leave : Play Frame := do
  match (← get).guest.frames with
  | [] => failure
  | frame :: outer =>
    modifyProgress fun p => { p with frames := outer }
    return frame

def modifyFrame (f : Frame → Frame) : Play Unit :=
  modifyProgress fun p =>
    match p.frames with
    | [] => p
    | frame :: outer => { p with frames := f frame :: outer }

def nextProceed : Play Nat := do
  match (← get).guest.frames with
  | [] => failure
  | frame :: _ =>
    modifyFrame fun f => { f with proceeds := f.proceeds + 1 }
    return frame.proceeds

def keepReport (r : StepReport) : Play Unit :=
  modifyFrame fun f => { f with nested := r :: f.nested }

/-- The number by which answers show a strategy. -/
def showStrategy (number : Nat) : Play Nat := do
  let shown := (← get).guest.shown
  match shown.findIdx? (· == number) with
  | some i => return i
  | none =>
    modifyProgress fun p => { p with shown := p.shown ++ [number] }
    return shown.length

/-- A call whose makings take the given turns. -/
def call (spec : CallSpec) (turns : List (List Json → Play CallOutcome)) :
    Call Registered Progress where
  method := spec.method
  target := spec.target
  arguments := spec.arguments
  proceed := do
    let n ← nextProceed
    match turns[min n (turns.length - 1)]? with
    | none => return .ok (.arr spec.arguments)
    | some turn => turn spec.arguments

/-- Whether the circuit of a label was open at its latest check. -/
def circuitIsOpen (label : String) (ledger : Nat) : Play Bool := do
  return (((← get).ledgers.get ledger).get? (Guard.circuitKey label)).any (·.isOpen)

def view (r : Resolved Registered) : Play StrategyView := do
  let number ← showStrategy r.number
  let isOpen ← match r.strategy with
    | .guarded (.circuit _ label ledger) => circuitIsOpen label ledger
    | _ => pure false
  return ⟨number, r.strategy, isOpen⟩

end Play

end CallGuard
