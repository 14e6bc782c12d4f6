import CallGuard.Settings.Table
import Mathlib.Data.List.Induction
/-! # What a table of declarations answers

A table is written declaration by declaration. Some of them overwrite what it holds, others only
fill a gap, so its entries depend on the order. What it answers can be read off the declarations
without writing it: `Reflects` says so map by map and is kept by every declaration, and
`answers_of_declarations` puts the maps together. Retries and circuits are read off apart from each
other, so it makes no difference how their declarations come in between. -/

namespace CallGuard

namespace Declaration

/-! ## What one declaration says -/

/-- The retry settings that it declares on the method itself. -/
def retryOf (m : Method) : Declaration → Option RetrySettings
  | .onMethod m' retry => if m = m' then some retry else none
  | _ => none

def circuitOf (m : Method) : Declaration → Option CircuitSettings
  | .circuitOnMethod m' circuit => if m = m' then some circuit else none
  | _ => none

/-- The retry settings that it declares on the type of that name. -/
def retryOfType (name : String) : Declaration → Option RetrySettings
  | .onType name' retry => if name = name' then some retry else none
  | _ => none

def circuitOfType (name : String) : Declaration → Option CircuitSettings
  | .circuitOnType name' circuit => if name = name' then some circuit else none
  | _ => none

def isCircuit : Declaration → Bool
  | .circuitOnMethod _ _ => true
  | .circuitOnType _ _ => true
  | _ => false

/-! ## What a list of declarations says -/

variable {α : Type} {said : Declaration → Option α} {ds : List Declaration}

def latest (said : Declaration → Option α) (ds : List Declaration) : Option α :=
  (ds.filterMap said).getLast?

def earliest (said : Declaration → Option α) (ds : List Declaration) : Option α :=
  (ds.filterMap said).head?

theorem latest_concat (said : Declaration → Option α) (ds : List Declaration) (d : Declaration) :
    latest said (ds ++ [d]) = (said d).or (latest said ds) := by
  unfold latest
  cases h : said d <;> simp [h]

theorem earliest_concat (said : Declaration → Option α) (ds : List Declaration) (d : Declaration) :
    earliest said (ds ++ [d]) = (earliest said ds).or (said d) := by
  unfold earliest
  cases h : said d <;> simp [h]

/-- Only declarations of some kind say anything in this respect. -/
def SaidBy (kind : Declaration → Bool) (said : Declaration → Option α) : Prop :=
  ∀ d, kind d = false → said d = none

theorem SaidBy.filterMap_filter {kind : Declaration → Bool} (h : SaidBy kind said)
    (ds : List Declaration) : (ds.filter kind).filterMap said = ds.filterMap said := by
  rw [List.filterMap_filter]
  congr 1
  funext d
  cases hd : kind d with
  | false => simp [h d hd]
  | true => simp

/-- Lists with the same declarations of that kind, in the same order, say the same. -/
theorem SaidBy.agree {kind : Declaration → Bool} (h : SaidBy kind said) {ds ds' : List Declaration}
    (hkind : ds'.filter kind = ds.filter kind) : ds'.filterMap said = ds.filterMap said := by
  rw [← h.filterMap_filter ds', hkind, h.filterMap_filter ds]

theorem retryOf_saidBy (m : Method) : SaidBy (!·.isCircuit) (retryOf m)
  | .circuitOnMethod _ _, _ => rfl
  | .circuitOnType _ _, _ => rfl

theorem retryOfType_saidBy (name : String) : SaidBy (!·.isCircuit) (retryOfType name)
  | .circuitOnMethod _ _, _ => rfl
  | .circuitOnType _ _, _ => rfl

theorem circuitOf_saidBy (m : Method) : SaidBy (·.isCircuit) (circuitOf m)
  | .onMethod _ _, _ => rfl
  | .onType _ _, _ => rfl

theorem circuitOfType_saidBy (name : String) : SaidBy (·.isCircuit) (circuitOfType name)
  | .onMethod _ _, _ => rfl
  | .onType _ _, _ => rfl

end Declaration

open Declaration

namespace SettingsTable

variable {ds : List Declaration} {t : SettingsTable}

/-- The maps of the table hold what the declarations say. -/
structure Reflects (ds : List Declaration) (t : SettingsTable) : Prop where
  methods : ∀ m, t.methods.get? m = (latest (retryOf m) ds).or
    ((latest (circuitOf m) ds).map fun _ => .statefulDefault)
  types : ∀ name, t.types.get? name = (latest (retryOfType name) ds).or
    ((earliest (circuitOfType name) ds).map (·.asRetry))
  circuits : ∀ m, t.circuits.get? m = latest (circuitOf m) ds

theorem reflects_empty : Reflects [] empty := ⟨fun _ => rfl, fun _ => rfl, fun _ => rfl⟩

/-- One more declaration overwrites the latest one of its kind, or fills a gap. -/
theorem Reflects.declare (h : Reflects ds t) (d : Declaration) :
    Reflects (ds ++ [d]) (t.declare d) := by
  obtain ⟨hm, ht, hc⟩ := h
  cases d with
  | onMethod m retry =>
    refine ⟨fun m' => ?_, fun name => ?_, fun m' => ?_⟩
    · simp only [SettingsTable.declare, Dict.get?_insert, latest_concat, retryOf, circuitOf, hm]
      split <;> simp
    · simpa [SettingsTable.declare, latest_concat, earliest_concat, retryOfType, circuitOfType]
        using ht name
    · simpa [SettingsTable.declare, latest_concat, circuitOf] using hc m'
  | onType name retry =>
    refine ⟨fun m' => ?_, fun name' => ?_, fun m' => ?_⟩
    · simpa [SettingsTable.declare, latest_concat, retryOf, circuitOf] using hm m'
    · simp only [SettingsTable.declare, Dict.get?_insert, latest_concat, earliest_concat,
        retryOfType, circuitOfType, ht]
      split <;> simp
    · simpa [SettingsTable.declare, latest_concat, circuitOf] using hc m'
  | circuitOnMethod m circuit =>
    refine ⟨fun m' => ?_, fun name => ?_, fun m' => ?_⟩
    · simp only [SettingsTable.declare, Dict.get?_insertNew, latest_concat, retryOf, circuitOf, hm]
      split
      · next heq =>
        subst heq
        cases latest (retryOf m') ds <;> cases latest (circuitOf m') ds <;> simp
      · simp
    · simpa [SettingsTable.declare, latest_concat, earliest_concat, retryOfType, circuitOfType]
        using ht name
    · simp only [SettingsTable.declare, Dict.get?_insert, latest_concat, circuitOf, hc]
      split <;> simp
  | circuitOnType name circuit =>
    refine ⟨fun m' => ?_, fun name' => ?_, fun m' => ?_⟩
    · simpa [SettingsTable.declare, latest_concat, retryOf, circuitOf] using hm m'
    · simp only [SettingsTable.declare, Dict.get?_insertNew, latest_concat, earliest_concat,
        retryOfType, circuitOfType, ht]
      split
      · next heq =>
        subst heq
        cases latest (retryOfType name') ds <;> cases earliest (circuitOfType name') ds <;> simp
      · simp
    · simpa [SettingsTable.declare, latest_concat, circuitOf] using hc m'

theorem reflects_ofDeclarations (ds : List Declaration) : Reflects ds (ofDeclarations ds) := by
  induction ds using List.reverseRecOn with
  | nil => exact reflects_empty
  | append_singleton ds d ih =>
    rw [ofDeclarations, List.foldl_append]
    exact ih.declare d

/-- The settings that the declarations give a method, its own before those of its type. -/
theorem retry_ofDeclarations (ds : List Declaration) (m : Method) :
    (ofDeclarations ds).retry m =
      (latest (retryOf m) ds).or
        (((latest (circuitOf m) ds).map fun _ => RetrySettings.statefulDefault).or
          ((latest (retryOfType m.declaringType) ds).or
            ((earliest (circuitOfType m.declaringType) ds).map (·.asRetry)))) := by
  have h := reflects_ofDeclarations ds
  rw [retry, h.methods, h.types, Option.or_assoc]

theorem circuit_ofDeclarations (ds : List Declaration) (m : Method) :
    (ofDeclarations ds).circuit m = latest (circuitOf m) ds :=
  (reflects_ofDeclarations ds).circuits m

/-- Lists with the same declarations of retries, in the same order, and the same declarations of
circuits, in the same order, make tables with the same answers. -/
theorem source_congr {ds ds' : List Declaration}
    (hretries : ds'.filter (!·.isCircuit) = ds.filter (!·.isCircuit))
    (hcircuits : ds'.filter (·.isCircuit) = ds.filter (·.isCircuit)) :
    (ofDeclarations ds').source = (ofDeclarations ds).source := by
  have hretry (m : Method) : (ofDeclarations ds').retry m = (ofDeclarations ds).retry m := by
    simp only [retry_ofDeclarations, latest, earliest, (retryOf_saidBy m).agree hretries,
      (retryOfType_saidBy m.declaringType).agree hretries, (circuitOf_saidBy m).agree hcircuits,
      (circuitOfType_saidBy m.declaringType).agree hcircuits]
  have hcircuit (m : Method) : (ofDeclarations ds').circuit m = (ofDeclarations ds).circuit m := by
    simp only [circuit_ofDeclarations, latest, (circuitOf_saidBy m).agree hcircuits]
  rw [source, source, funext hretry, funext hcircuit]

/-- **What a table answers.** A method has the retry settings declared on it last; else, with a
circuit declared on it, the stateful default; else those declared on its type last; else, with
circuits declared on its type, the attempts of the first of these, stateful. It has the circuit
declared on it last, and circuits declared on types do not matter there. None of it depends on how
declarations of retries and declarations of circuits come in between each other. -/
theorem answers_of_declarations (ds : List Declaration) :
    (∀ m, (ofDeclarations ds).retry m =
      (latest (retryOf m) ds).or
        (((latest (circuitOf m) ds).map fun _ => { RetrySettings.default with stateful := true }).or
          ((latest (retryOfType m.declaringType) ds).or
            ((earliest (circuitOfType m.declaringType) ds).map fun circuit =>
              { RetrySettings.default with
                stateful := true
                maxAttempts := circuit.maxAttempts
                includes := circuit.effectiveIncludes
                excludes := circuit.excludes })))) ∧
    (∀ m, (ofDeclarations ds).circuit m = latest (circuitOf m) ds) ∧
    (∀ m before name circuit after, ds = before ++ .circuitOnType name circuit :: after →
      (ofDeclarations ds).circuit m = (ofDeclarations (before ++ after)).circuit m) ∧
    ∀ ds', ds'.filter (!·.isCircuit) = ds.filter (!·.isCircuit) →
      ds'.filter (·.isCircuit) = ds.filter (·.isCircuit) →
      (ofDeclarations ds').source = (ofDeclarations ds).source := by
  refine ⟨retry_ofDeclarations ds, circuit_ofDeclarations ds, ?_, fun ds' => source_congr⟩
  rintro m before name circuit after rfl
  simp [circuit_ofDeclarations, latest, circuitOf]

def reserve : Method := ⟨"Stock", "reserve", []⟩

def retriesFirst : List Declaration :=
  [.onMethod reserve { RetrySettings.default with maxAttempts := 9 },
    .onType "Stock" { RetrySettings.default with maxAttempts := 7 },
    .circuitOnMethod reserve CircuitSettings.default,
    .circuitOnType "Stock" { CircuitSettings.default with maxAttempts := 5 }]

/-- The same declarations; those of circuits come when there is nothing to keep yet. -/
def circuitsFirst : List Declaration :=
  [.circuitOnMethod reserve CircuitSettings.default,
    .onMethod reserve { RetrySettings.default with maxAttempts := 9 },
    .circuitOnType "Stock" { CircuitSettings.default with maxAttempts := 5 },
    .onType "Stock" { RetrySettings.default with maxAttempts := 7 }]

theorem answers_of_declarations_reserve :
    circuitsFirst.filter (!·.isCircuit) = retriesFirst.filter (!·.isCircuit) ∧
      circuitsFirst.filter (·.isCircuit) = retriesFirst.filter (·.isCircuit) ∧
      (ofDeclarations circuitsFirst).source = (ofDeclarations retriesFirst).source :=
  ⟨rfl, rfl, (answers_of_declarations retriesFirst).2.2.2 circuitsFirst rfl rfl⟩

end SettingsTable

end CallGuard
