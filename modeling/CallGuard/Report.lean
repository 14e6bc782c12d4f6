import CallGuard.CallError
import CallGuard.Plan
/-! # Domain values as JSON

Durations are written in nanoseconds as decimal texts, binary64 numbers as sixteen hexadecimal
digits, and failure types by their ids. -/

namespace CallGuard

def Duration.toJson (d : Duration) : Json := .str (toString d.nanos)

/-- A number by its bits, all those that are not a number alike. -/
def numberJson (x : Float) : Json :=
  if x.isNaN then .str "NaN" else .str (Binary64.hex x.toBits)

def optionJson {α : Type} (f : α → Json) : Option α → Json
  | none => .null
  | some a => f a

def FailureType.toJson (t : FailureType) : Json := .str t.id

def Failure.toJson (f : Failure) : Json :=
  .arr (f.chain.map fun l => .arr [l.kind.toJson, .str l.message])

def Backoff.toJson : Backoff → Json
  | none => Json.object [("kind", .str "none")]
  | fixed period => Json.object [("kind", .str "fixed"), ("period", period.toJson)]
  | uniform low high =>
    Json.object [("kind", .str "uniform"), ("min", low.toJson), ("max", high.toJson)]
  | exponential initial multiplier high =>
    Json.object [("kind", .str "exponential"), ("initial", initial.toJson),
      ("multiplier", numberJson multiplier), ("max", high.toJson)]
  | exponentialRandom initial multiplier high =>
    Json.object [("kind", .str "exponential_random"), ("initial", initial.toJson),
      ("multiplier", numberJson multiplier), ("max", high.toJson)]

def Policy.toJson (p : Policy) : Json :=
  let common := [("max", Json.nat p.limit.limit), ("global", .bool p.isShared),
    ("default_retryable", .bool p.limit.classifier.fallback)]
  match p with
  | .attempts _ => Json.object common
  | .circuit c => Json.object (common ++ [("open", c.openTimeout.toJson),
      ("reset", c.resetTimeout.toJson), ("label", .str c.label)])

def Handler.toJson (h : Handler) : Json := .arr [.str h.name, optionJson FailureType.toJson h.kind]

def Recoverer.toJson (r : Recoverer) : Json :=
  match r.route with
  | .native _ => Json.object [("native", .bool true), ("target", .str r.target),
      ("handlers", .null)]
  | .handlers _ handlers => Json.object [("native", .bool false), ("target", .str r.target),
      ("handlers", .arr (handlers.map Handler.toJson))]

def RetryKey.toJson (k : RetryKey) : Json := .arr [.str k.key, .bool k.refresh]

def Plan.toJson (p : Plan) (method : Method) (arguments : List Json) : Json :=
  Json.object [("policy", p.policy.toJson), ("backoff", p.backoff.toJson),
    ("recoverer", optionJson Recoverer.toJson p.recoverer),
    ("state", optionJson RetryKey.toJson p.key), ("method", .str method.signature),
    ("args", .arr arguments)]

def Context.toJson (c : Context) : Json :=
  Json.object [("attempts", .nat c.attempts), ("last", optionJson Failure.toJson c.last),
    ("started", .nat c.started), ("open", .bool c.isOpen),
    ("state", .str (if c.isOpen then "open" else "closed"))]

def LogRecord.toJson (r : LogRecord) : Json :=
  .arr [.str r.severity.text, .str r.source, .str r.text, Json.object r.fields]

end CallGuard
