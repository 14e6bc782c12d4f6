import CallGuard.Json
/-! # Methods, and what the library reports about its work with them

Events are recorded as what happened; `Event.record` gives each its severity, its source, its text
and its fields. -/

namespace CallGuard

/-- A method: the type that declares it, its name and the names of its parameter types. -/
structure Method where
  declaringType : String
  name : String
  parameters : List String
deriving DecidableEq, Repr, Inhabited

namespace Method

/-- The method in one line, such as `Orders::place(Order, bool)`. -/
def signature (m : Method) : String :=
  m.declaringType ++ "::" ++ m.name ++ "(" ++ ", ".intercalate m.parameters ++ ")"

/-- Order by declaring type, then by name, then by parameters from the first on, each by the order
of the UTF-8 bytes. -/
def precedes (a b : Method) : Bool :=
  if a.declaringType ≠ b.declaringType then decide (a.declaringType < b.declaringType)
  else if a.name ≠ b.name then decide (a.name < b.name)
  else decide (a.parameters < b.parameters)

end Method

inductive Severity where
  | trace
  | debug
  | info
  | warn
deriving DecidableEq, Repr

namespace Severity

def text : Severity → String
  | trace => "TRACE"
  | debug => "DEBUG"
  | info => "INFO"
  | warn => "WARN"

end Severity

inductive StrategyKind where
  | none
  | stateless
  | stateful
  | circuitBreaker
  | explicit
deriving DecidableEq, Repr

namespace StrategyKind

def text : StrategyKind → String
  | none => "none"
  | stateless => "stateless"
  | stateful => "stateful"
  | circuitBreaker => "circuit-breaker"
  | explicit => "explicit"

end StrategyKind

inductive Event where
  | circuitCloses (label : String)
  | circuitOpens (label : String) (failures : Nat)
  | retrying (method : Method) (attempt : Nat)
  | retriesExhausted (method : Method) (attempts : Nat)
  | attemptFailed (method : Method) (key : String) (attempts : Nat) (retryAgain : Bool)
  | keyMissing (method : Method)
  | recovering (method : Method) (handler : String)
  | recoversNatively (method : Method)
  | handlersFound (method : Method) (count : Nat)
  | nameReplaced (name : String)
  | strategyReused (method : Method)
  | settingsMissing (method : Method)
  | strategyResolved (method : Method) (kind : StrategyKind)
deriving DecidableEq, Repr

structure LogRecord where
  severity : Severity
  source : String
  text : String
  fields : List (String × Json)

namespace Event

def record : Event → LogRecord
  | circuitCloses label =>
    ⟨.info, "lifeline::circuit_breaker", "closing circuit", [("label", .str label)]⟩
  | circuitOpens label failures =>
    ⟨.info, "lifeline::circuit_breaker", "opening circuit",
      [("label", .str label), ("failures", .nat failures)]⟩
  | retrying method attempt =>
    ⟨.debug, "lifeline::template", "retrying",
      [("method", .str method.signature), ("attempt", .nat attempt)]⟩
  | retriesExhausted method attempts =>
    ⟨.debug, "lifeline::template", "retries exhausted",
      [("method", .str method.signature), ("attempts", .nat attempts)]⟩
  | attemptFailed method key attempts retryAgain =>
    ⟨.debug, "lifeline::template", "stateful attempt failed",
      [("method", .str method.signature), ("key", .str key), ("attempts", .nat attempts),
        ("retry_again", .bool retryAgain)]⟩
  | keyMissing method =>
    ⟨.warn, "lifeline::interceptor",
      "no retry key for arguments; proceeding without retry state",
      [("method", .str method.signature)]⟩
  | recovering method handler =>
    ⟨.debug, "lifeline::recovery", "recovering",
      [("method", .str method.signature), ("handler", .str handler)]⟩
  | recoversNatively method =>
    ⟨.debug, "lifeline::recovery", "target recovers natively",
      [("method", .str method.signature)]⟩
  | handlersFound method count =>
    ⟨.debug, "lifeline::recovery", "recovery handlers found",
      [("method", .str method.signature), ("handlers", .nat count)]⟩
  | nameReplaced name =>
    ⟨.warn, "lifeline::registry", "interceptor name replaced; last registration wins",
      [("name", .str name)]⟩
  | strategyReused method =>
    ⟨.trace, "lifeline::dispatcher", "strategy cache hit", [("method", .str method.signature)]⟩
  | settingsMissing method =>
    ⟨.debug, "lifeline::dispatcher", "no retry metadata", [("method", .str method.signature)]⟩
  | strategyResolved method kind =>
    ⟨.debug, "lifeline::dispatcher", "strategy resolved",
      [("method", .str method.signature), ("strategy", .str kind.text)]⟩

end Event

end CallGuard
