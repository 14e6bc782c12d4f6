/-! # Failures of calls, and the hierarchy of failure types that decides how they are treated

A type is told from another by its whole declaration, its `id` included, never by its name alone:
two declarations may share a name. A failure carries the failures that caused it, as a chain. -/

namespace CallGuard

inductive FailureType where
  | root (id name : String)
  /-- A type that extends `parent`. -/
  | sub (id name : String) (parent : FailureType)
deriving DecidableEq, Repr, Inhabited

namespace FailureType

def id : FailureType → String
  | root id _ => id
  | sub id _ _ => id

def name : FailureType → String
  | root _ name => name
  | sub _ name _ => name

def parent? : FailureType → Option FailureType
  | root _ _ => none
  | sub _ _ parent => some parent

/-- The type and the types it extends, nearest first. -/
def ancestors : FailureType → List FailureType
  | root id name => [root id name]
  | sub id name parent => sub id name parent :: parent.ancestors

/-- Whether `t` is `a` or extends it, at any distance. -/
def isA (t a : FailureType) : Bool := t.ancestors.contains a

def distanceTo (t a : FailureType) : Option Nat := t.ancestors.findIdx? (· == a)

end FailureType

structure Link where
  kind : FailureType
  message : String
deriving DecidableEq, Repr, Inhabited

namespace Link

def text (l : Link) : String := l.kind.name ++ ": " ++ l.message

end Link

/-- A failure with its causes, nearest first. -/
structure Failure extends Link where
  causes : List Link
deriving DecidableEq, Repr, Inhabited

namespace Failure

def chain (f : Failure) : List Link := f.toLink :: f.causes

def cause? (f : Failure) : Option Failure :=
  match f.causes with
  | [] => none
  | l :: ls => some ⟨l, ls⟩

def ofChain? : List Link → Option Failure
  | [] => none
  | l :: ls => some ⟨l, ls⟩

def sources (f : Failure) : List String := f.causes.map Link.text

end Failure

end CallGuard
