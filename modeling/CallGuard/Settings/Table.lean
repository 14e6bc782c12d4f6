import CallGuard.Settings
import CallGuard.Dict
/-! # A table of declared settings

Settings declared on a method come before those declared on its type. A circuit declared on a
method makes the method stateful unless it has retry settings already; a circuit declared on a type
leaves behind only its attempts, as stateful retry settings, and only if the type has no settings
yet. Circuit settings themselves are looked up on methods alone. -/

namespace CallGuard

inductive Declaration where
  | onMethod (method : Method) (retry : RetrySettings)
  | onType (typeName : String) (retry : RetrySettings)
  | circuitOnMethod (method : Method) (circuit : CircuitSettings)
  | circuitOnType (typeName : String) (circuit : CircuitSettings)

structure SettingsTable where
  methods : Dict Method RetrySettings
  types : Dict String RetrySettings
  circuits : Dict Method CircuitSettings
deriving Inhabited

def RetrySettings.statefulDefault : RetrySettings := { RetrySettings.default with stateful := true }

/-- What a circuit declared on a type leaves behind: its attempts, its effective included types and
its excluded ones. -/
def CircuitSettings.asRetry (c : CircuitSettings) : RetrySettings :=
  { RetrySettings.statefulDefault with
    maxAttempts := c.maxAttempts
    includes := c.effectiveIncludes
    excludes := c.excludes }

namespace SettingsTable

def empty : SettingsTable := ⟨Dict.empty, Dict.empty, Dict.empty⟩

def declare (t : SettingsTable) : Declaration → SettingsTable
  | .onMethod m retry => { t with methods := t.methods.insert m retry }
  | .onType name retry => { t with types := t.types.insert name retry }
  | .circuitOnMethod m circuit =>
    { t with
      methods := t.methods.insertNew m RetrySettings.statefulDefault
      circuits := t.circuits.insert m circuit }
  | .circuitOnType name circuit => { t with types := t.types.insertNew name circuit.asRetry }

def ofDeclarations (ds : List Declaration) : SettingsTable := ds.foldl declare empty

def retry (t : SettingsTable) (m : Method) : Option RetrySettings :=
  (t.methods.get? m).or (t.types.get? m.declaringType)

def circuit (t : SettingsTable) (m : Method) : Option CircuitSettings := t.circuits.get? m

def source (t : SettingsTable) : SettingsSource := ⟨t.retry, t.circuit⟩

end SettingsTable

end CallGuard
