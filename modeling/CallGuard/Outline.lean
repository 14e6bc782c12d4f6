import CallGuard.Plan
import CallGuard.Text.Unseen
/-! # Outlines: one-line texts that show the make-up of a value

A record is its name and its fields in braces, a variant its name and its content in parentheses, a
list its items in brackets. Texts stand between quotes, with an escape for every character that
would not be seen as itself. There are outlines of backoffs, handlers, recoveries and calls. -/

namespace CallGuard

namespace Outline

def escapeChar (c : Char) : List Char :=
  if c = '"' then ['\\', '"']
  else if c = '\\' then ['\\', '\\']
  else if c = '\n' then ['\\', 'n']
  else if c = '\r' then ['\\', 'r']
  else if c = '\t' then ['\\', 't']
  else if c.toNat = 0 then ['\\', '0']
  else if Text.isSeen c then [c]
  else ['\\', 'u', '{'] ++ Nat.toDigits 16 c.toNat ++ ['}']

def quoted (s : String) : String :=
  String.ofList ('"' :: (s.toList.flatMap escapeChar ++ ['"']))

def list (items : List String) : String := "[" ++ ", ".intercalate items ++ "]"

def variant (name content : String) : String := name ++ "(" ++ content ++ ")"

def record (name : String) (fields : List (String × String)) : String :=
  name ++ " \x7b " ++ ", ".intercalate (fields.map fun (n, v) => n ++ ": " ++ v) ++ " \x7d"

def option : Option String → String
  | none => "None"
  | some s => variant "Some" s

end Outline

/-- Digits of `n` in `width` places, without the zeros at the end. -/
def fractionDigits (width n : Nat) : List Char :=
  let ds := Nat.toDigits 10 n
  ((List.replicate (width - ds.length) '0' ++ ds).reverse.dropWhile (· == '0')).reverse

def decimalText (whole width fraction : Nat) : String :=
  match fractionDigits width fraction with
  | [] => toString whole
  | ds => toString whole ++ "." ++ String.ofList ds

/-- A duration in the largest of the units second to nanosecond that it reaches. -/
def Duration.outline (d : Duration) : String :=
  if 1000000000 ≤ d.nanos then
    decimalText (d.nanos / 1000000000) 9 (d.nanos % 1000000000) ++ "s"
  else if 1000000 ≤ d.nanos then decimalText (d.nanos / 1000000) 6 (d.nanos % 1000000) ++ "ms"
  else if 1000 ≤ d.nanos then decimalText (d.nanos / 1000) 3 (d.nanos % 1000) ++ "µs"
  else toString d.nanos ++ "ns"

/-- Numbers from 0.0001 up to below 1e16 are written positionally. A tie goes away from zero. -/
def outlineLayout : Binary64.Layout := ⟨.up, -4, 15, []⟩

def numberOutline (x : Float) : String :=
  if x.isNaN then "NaN"
  else if x.isInf then (if x < 0 then "-inf" else "inf")
  else String.ofList (outlineLayout.text x.toBits)

def Backoff.outline : Backoff → String
  | none => "NoBackoff"
  | fixed period => Outline.record "Fixed" [("period", period.outline)]
  | uniform low high =>
    Outline.record "UniformRandom" [("min", low.outline), ("max", high.outline)]
  | exponential initial multiplier high =>
    Outline.record "Exponential" [("initial", initial.outline),
      ("multiplier", numberOutline multiplier), ("max", high.outline)]
  | exponentialRandom initial multiplier high =>
    Outline.record "ExponentialRandom" [("initial", initial.outline),
      ("multiplier", numberOutline multiplier), ("max", high.outline)]

def Backoff.outlineWith (b : Backoff) (sleeper : String) : String :=
  Outline.record "BackoffPolicy" [("kind", b.outline), ("sleeper", sleeper)]

def Method.outline (m : Method) : String :=
  Outline.record "MethodKey" [("declaring_type", Outline.quoted m.declaringType),
    ("name", Outline.quoted m.name),
    ("parameters", Outline.list (m.parameters.map Outline.quoted))]

def Handler.outline (h : Handler) : String :=
  Outline.record "RecoverHandler" [("name", Outline.quoted h.name),
    ("handles", Outline.option (h.kind.map fun k => Outline.quoted k.name))]

def Handler.outlineAll (hs : List Handler) : String := Outline.list (hs.map Handler.outline)

def Recoverer.outline (r : Recoverer) : String :=
  let target := ("target", Outline.quoted r.target)
  match r.route with
  | .native _ => Outline.record "RecovererBinding" [target, ("dispatch", Outline.quoted "<native>")]
  | .handlers method handlers =>
    Outline.record "RecovererBinding" [target, ("method", method.outline),
      ("handlers", Handler.outlineAll handlers)]

mutual

def Json.outline : Json → String
  | .null => "Null"
  | .bool b => Outline.variant "Bool" (toString b)
  | .num n => Outline.variant "Number" (String.ofList (Json.numberText n))
  | .str s => Outline.variant "String" (Outline.quoted s)
  | .arr items => "Array " ++ Outline.list (Json.outlineItems items)
  | .obj members => "Object \x7b" ++ ", ".intercalate (Json.outlineMembers members) ++ "\x7d"

def Json.outlineItems : List Json → List String
  | [] => []
  | item :: rest => item.outline :: Json.outlineItems rest

def Json.outlineMembers : List (String × Json) → List String
  | [] => []
  | (name, value) :: rest =>
    (Outline.quoted name ++ ": " ++ value.outline) :: Json.outlineMembers rest

end

/-- A call: its method, its target's type and its arguments. -/
def callOutline (method : Method) (target : Target) (arguments : List Json) : String :=
  Outline.record "MethodCall" [("method", method.outline),
    ("target", Outline.quoted target.typeName),
    ("arguments", Outline.list (Json.outlineItems arguments))]

end CallGuard
