import CallGuard.Policy
/-! # How a guarded call can fail -/

namespace CallGuard

inductive RegistryError where
  | notFound (name : String)
deriving DecidableEq, Repr

def RegistryError.message : RegistryError → String
  | notFound name => "interceptor '" ++ name ++ "' not found"

inductive ErrorKind where
  | failed
  | exhausted
  | circuitOpen
  | interceptorMissing
  | invalidSettings
  | contextsFull
deriving DecidableEq, Repr

inductive CallError where
  /-- The call failed and is not attempted again. -/
  | failed (failure : Failure)
  /-- A retry key has no attempt left. -/
  | exhausted (attempts : Nat) (last : Failure)
  | circuitOpen (label : String)
  | interceptorMissing (name : String)
  | invalidSettings (cause : PolicyError)
  | contextsFull (capacity : Nat)
deriving DecidableEq, Repr

namespace CallError

def message : CallError → String
  | failed f => f.text
  | exhausted attempts last =>
    "retry exhausted after " ++ toString attempts ++ " attempts; last failure: " ++ last.text
  | circuitOpen label => "circuit '" ++ label ++ "' is open"
  | interceptorMissing name => "no interceptor registered under '" ++ name ++ "'"
  | invalidSettings cause => "invalid retry descriptor: " ++ cause.message
  | contextsFull capacity =>
    "retry context cache is full (capacity " ++ toString capacity ++ ")"

def failure? : CallError → Option Failure
  | failed f => some f
  | exhausted _ last => some last
  | _ => none

def kind : CallError → ErrorKind
  | failed _ => .failed
  | exhausted _ _ => .exhausted
  | circuitOpen _ => .circuitOpen
  | interceptorMissing _ => .interceptorMissing
  | invalidSettings _ => .invalidSettings
  | contextsFull _ => .contextsFull

/-- Whether the settings are to blame rather than the call. -/
def isConfiguration (e : CallError) : Bool :=
  e.kind = .interceptorMissing || e.kind = .invalidSettings

/-- The texts of what led to the error, nearest first. -/
def sources : CallError → List String
  | failed f => f.text :: f.sources
  | exhausted _ last => last.text :: last.sources
  | invalidSettings cause => [cause.message]
  | _ => []

def ofRegistry : RegistryError → CallError
  | .notFound name => .interceptorMissing name

end CallError

abbrev Result := Except CallError Json

def Result.same : Result → Result → Bool
  | .ok a, .ok b => a == b
  | .error a, .error b => a == b
  | _, _ => false

instance : BEq Result := ⟨Result.same⟩

end CallGuard
