import CallGuard.Dict
import CallGuard.Failure
import CallGuard.Json
/-! # Recovery handlers and the types they are declared on

A type sees its own handlers and, through at most one parent, those of the types it inherits from.
Parents are declared freely and may form a cycle; the walk from a type stops at the first type it
has met already. -/

namespace CallGuard

/-- What stands in for a call that failed: a result from its arguments and its failure. -/
abbrev Recovery := List Json → Failure → Except Failure Json

structure Handler where
  name : String
  /-- The failure type it handles; a handler without one takes any failure. -/
  kind : Option FailureType
  recover : Recovery

namespace Handler

/-- The handlers for a type that `failure`'s type is or extends, with their distance from it. -/
def typed (handlers : List Handler) (failure : Failure) : List (Nat × Handler) :=
  handlers.filterMap fun h => h.kind.bind fun k => (failure.kind.distanceTo k).map (·, h)

/-- The first entry whose number none below it comes after. -/
def nearest : List (Nat × Handler) → Option (Nat × Handler)
  | [] => none
  | e :: es =>
    match nearest es with
    | none => some e
    | some e' => if e'.1 < e.1 then some e' else some e

/-- The handler for a failure: the nearest typed one, else the first that takes any failure. -/
def choose (handlers : List Handler) (failure : Failure) : Option Handler :=
  ((nearest (typed handlers failure)).map (·.2)).or (handlers.find? (·.kind.isNone))

end Handler

abbrev HandlerSource := String → List Handler

structure HandlerTable where
  handlers : Dict String (List Handler)
  parents : Dict String String
deriving Inhabited

namespace HandlerTable

def empty : HandlerTable := ⟨Dict.empty, Dict.empty⟩

def declare (t : HandlerTable) (typeName : String) (h : Handler) : HandlerTable :=
  { t with handlers := t.handlers.insert typeName (((t.handlers.get? typeName).getD []) ++ [h]) }

def inherit (t : HandlerTable) (child parent : String) : HandlerTable :=
  { t with parents := t.parents.insert child parent }

/-- The types met from `name` on, nearest first, without those in `seen`. Every type but the last
has a parent, so one more than the number of parents is enough fuel. -/
def walk (t : HandlerTable) : Nat → List String → String → List String
  | 0, _, _ => []
  | fuel + 1, seen, name =>
    if seen.contains name then []
    else name :: match t.parents.get? name with
      | none => []
      | some parent => walk t fuel (name :: seen) parent

def lineage (t : HandlerTable) (name : String) : List String :=
  t.walk (t.parents.size + 1) [] name

/-- The handlers that a type sees: its own first, each type's in the order of declaration. -/
def visible (t : HandlerTable) : HandlerSource := fun name =>
  (t.lineage name).flatMap fun n => (t.handlers.get? n).getD []

end HandlerTable

end CallGuard
