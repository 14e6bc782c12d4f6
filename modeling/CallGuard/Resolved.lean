import CallGuard.CallError
import CallGuard.Dict
import CallGuard.Plan
/-! # Interceptors registered by name, and strategies kept by method

Of the interceptors registered under one name the latest counts. A method is resolved until that
succeeds for the first time; from then on what came of it is kept. -/

namespace CallGuard

/-- Registered interceptors; the latest registration of a name counts. -/
abbrev Registry (ι : Type) := Dict String ι

namespace Registry

variable {ι : Type}

def register (r : Registry ι) (name : String) (i : ι) : Registry ι × List Event :=
  (r.insert name i, if r.contains name then [.nameReplaced name] else [])

def resolve (r : Registry ι) (name : String) : Except RegistryError ι :=
  match r.get? name with
  | some i => .ok i
  | none => .error (.notFound name)

/-- The registered names by the order of their UTF-8 bytes. -/
def names (r : Registry ι) : List String := r.keys.mergeSort fun a b => decide (a ≤ b)

end Registry

/-- A strategy with the number that tells it from others made alike. -/
structure Resolved (ι : Type) where
  number : Nat
  strategy : Strategy ι

structure Remembered (α : Type) where
  outcome : Except CallError α
  known : Dict Method α
  /-- Whether the method had to be resolved. -/
  ran : Bool

/-- What is kept for a method, else what resolving it gives; an error is not kept. -/
def remember {α : Type} (known : Dict Method α) (method : Method) (fresh : Except CallError α) :
    Remembered α :=
  match known.get? method, fresh with
  | some a, _ => ⟨.ok a, known, false⟩
  | none, .ok a => ⟨.ok a, known.insert method a, true⟩
  | none, .error e => ⟨.error e, known, true⟩

theorem remember_known {α : Type} {known : Dict Method α} {method : Method} {a : α}
    (h : known.get? method = some a) (fresh : Except CallError α) :
    remember known method fresh = ⟨.ok a, known, false⟩ := by
  simp [remember, h]

theorem remember_error {α : Type} {known : Dict Method α} {method : Method}
    (h : known.get? method = none) (e : CallError) :
    remember known method (.error e) = ⟨.error e, known, true⟩ := by
  simp [remember, h]

theorem remember_ok {α : Type} {known : Dict Method α} {method : Method}
    (h : known.get? method = none) (a : α) :
    remember known method (.ok a) = ⟨.ok a, known.insert method a, true⟩ := by
  simp [remember, h]

end CallGuard
