import CallGuard.Event
import CallGuard.Recovery.Handler
/-! # How the calls on a target recover when no attempt is left

A target may recover by itself; otherwise the handlers that its type sees are bound together, and
the one for the failure at hand is chosen when it occurs. -/

namespace CallGuard

structure Target where
  typeName : String
  native : Option Recovery

inductive RecoveryRoute where
  | native (recover : Recovery)
  | handlers (method : Method) (handlers : List Handler)

structure Recoverer where
  target : String
  route : RecoveryRoute

namespace Recoverer

/-- Finds the recovery of a target. A type that sees no handler has none. -/
def locate (source : HandlerSource) (target : Target) (method : Method) :
    Option Recoverer × List Event :=
  match target.native with
  | some recover => (some ⟨target.typeName, .native recover⟩, [.recoversNatively method])
  | none =>
    match source target.typeName with
    | [] => (none, [])
    | h :: hs =>
      (some ⟨target.typeName, .handlers method (h :: hs)⟩,
        [.handlersFound method (hs.length + 1)])

/-- Recovers from a failure. Without a handler for it the failure stays. -/
def recover (r : Recoverer) (arguments : List Json) (failure : Failure) :
    Except Failure Json × List Event :=
  match r.route with
  | .native run => (run arguments failure, [])
  | .handlers method handlers =>
    match Handler.choose handlers failure with
    | some h => (h.recover arguments failure, [.recovering method h.name])
    | none => (.error failure, [])

end Recoverer

end CallGuard
