import CallGuard.Json.Printer
import CallGuard.Plan
/-! # Ready-made recoveries and key rules for scenarios -/

namespace CallGuard

inductive RecoverySpec where
  | answer (value : Json)
  | fail (failure : Failure)
  /-- Fails with the failure it is given. -/
  | rethrow
  /-- Answers with its name, the arguments and the text of the failure. -/
  | echo

def RecoverySpec.recovery (spec : RecoverySpec) (name : String) : Recovery :=
  fun arguments failure =>
    match spec with
    | answer value => .ok value
    | fail f => .error f
    | rethrow => .error failure
    | echo => .ok (Json.object [("by", .str name), ("args", .arr arguments),
        ("failure", .str failure.text)])

inductive KeySpec where
  | argument (i : Nat)
  | rendering (i : Nat)
  | constant (key : String)
  | nothing

def KeySpec.keyOf (spec : KeySpec) (arguments : List Json) : Option String :=
  match spec with
  | argument i => arguments[i]?.bind Json.str?
  | rendering i => arguments[i]?.map Json.compact
  | constant key => some key
  | nothing => none

/-- The rule for keys; arguments are new when the one in the given place is `true`. -/
def KeyRule.ofSpecs (key : Option KeySpec) (isNew : Option Nat) : KeyRule :=
  ⟨key.map KeySpec.keyOf, isNew.map fun i arguments => arguments[i]?.any Json.isTrue⟩

end CallGuard
