import CallGuard.Backoff
import CallGuard.Json.Printer
import CallGuard.Policy
import CallGuard.Recovery
/-! # The terms on which a call is attempted -/

namespace CallGuard

inductive Sleeper where
  | recording
  | instant
  | timer
deriving DecidableEq, Repr, Inhabited

inductive Executor where
  /-- Makes the attempts, keeping the contexts of keys in a ledger. -/
  | attempting (ledger : Nat)
  /-- Makes no attempt and answers with the plan. -/
  | dryRun
deriving DecidableEq, Repr, Inhabited

/-- What a strategy settles once for all its calls. -/
structure Terms where
  policy : Policy
  backoff : Backoff
  sleeper : Sleeper
  recoverer : Option Recoverer
  executor : Executor

structure RetryKey where
  key : String
  /-- Whether attempts made under the key before are set aside. -/
  refresh : Bool
deriving DecidableEq, Repr

namespace RetryKey

/-- The key of a call where nothing else gives one: the signature and the arguments. -/
def default (method : Method) (arguments : List Json) : String :=
  method.signature ++ ":" ++ (Json.arr arguments).compact

end RetryKey

/-- The terms of one call; without a key all its attempts are made at once. -/
structure Plan extends Terms where
  key : Option RetryKey

structure KeyRule where
  /-- The key from the arguments, in place of the default one; nothing runs the call once, without
  a key. -/
  keyOf : Option (List Json → Option String)
  /-- Tells arguments that set earlier attempts aside. -/
  isNew : Option (List Json → Bool)

namespace KeyRule

def key? (r : KeyRule) (method : Method) (arguments : List Json) : Option RetryKey :=
  let refresh := r.isNew.any (· arguments)
  match r.keyOf with
  | none => some ⟨RetryKey.default method arguments, refresh⟩
  | some keyOf => (keyOf arguments).map (⟨·, refresh⟩)

end KeyRule

/-- The strategies that the library makes itself. -/
inductive Guard where
  /-- Attempts within the call. -/
  | stateless (terms : Terms)
  /-- Attempts counted across the calls with the same key. -/
  | stateful (terms : Terms) (rule : KeyRule)
  | circuit (terms : Terms) (label : String) (ledger : Nat)

namespace Guard

def terms : Guard → Terms
  | stateless t => t
  | stateful t _ => t
  | circuit t _ _ => t

/-- The key of the context of a labelled circuit. -/
def circuitKey (label : String) : String := "circuit:" ++ label

end Guard

/-- What governs the calls to a method; `ι` names registered interceptors. -/
inductive Strategy (ι : Type) where
  | none
  | guarded (guard : Guard)
  | explicit (name : String) (interceptor : ι)

namespace Strategy

def kind {ι : Type} : Strategy ι → StrategyKind
  | none => .none
  | guarded (.stateless _) => .stateless
  | guarded (.stateful _ _) => .stateful
  | guarded (.circuit _ _ _) => .circuitBreaker
  | explicit _ _ => .explicit

end Strategy

end CallGuard
