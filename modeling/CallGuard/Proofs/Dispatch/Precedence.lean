import CallGuard.Proofs.Dispatch.Guards
import CallGuard.Proofs.Text.Trimming
import CallGuard.Settings.Table
/-! # Which strategy a method gets

What a method gets is said by the settings alone, in an order of precedence: a named interceptor
first, then the attempts of one call, then a circuit, then the attempts of a key. `Chosen` says it
case by case, with all that the strategy is made of; the settings of a method and its circuit
settings never mix in it. `chosen_iff` says that resolving a method comes to what is chosen, for any
settings, registered interceptors and handlers. -/

namespace CallGuard

variable {ι γ : Type}

/-! ## What the settings say -/

/-- No name is given, or a blank one. -/
def Nameless (given : Option String) : Prop := ∀ raw, given = some raw → Text.Blank raw

theorem bind_nonBlank_eq_none {given : Option String} :
    given.bind Text.nonBlank = none ↔ Nameless given := by
  simp only [Option.bind_eq_none_iff, Text.nonBlank_eq_none, Nameless]

theorem bind_nonBlank_eq_some {given : Option String} {name : String} :
    given.bind Text.nonBlank = some name ↔ ∃ raw, given = some raw ∧ Text.Names raw name := by
  simp only [Option.bind_eq_some_iff, Text.nonBlank_eq_some]

/-- The list of included types that counts: the older one unless it is empty. -/
inductive AttemptSettings.Includes (s : AttemptSettings) : List FailureType → Prop where
  | older : s.legacyIncludes ≠ [] → Includes s s.legacyIncludes
  | newer : s.legacyIncludes = [] → Includes s s.includes

theorem AttemptSettings.includes_iff {s : AttemptSettings} {types : List FailureType} :
    s.Includes types ↔ s.effectiveIncludes = types := by
  unfold effectiveIncludes
  constructor
  · rintro (hne | hnil)
    · rw [if_neg (by rwa [List.isEmpty_iff])]
    · rw [if_pos (by rwa [List.isEmpty_iff])]
  · rintro rfl
    split
    · next h => exact .newer (List.isEmpty_iff.mp h)
    · next h => exact .older fun hnil => h (List.isEmpty_iff.mpr hnil)

/-- The limit has the attempts and the lists of the settings. -/
structure AttemptSettings.Sets (s : AttemptSettings) (limit : AttemptLimit) : Prop where
  attempts : limit.limit = s.maxAttempts
  types : ∃ includes, s.Includes includes ∧ limit.classifier =
    if includes = [] ∧ s.excludes = [] then .retryAll else .ofLists includes s.excludes

/-- The label of a circuit, or else the method's signature. -/
inductive CircuitSettings.Labels (c : CircuitSettings) (m : Method) : String → Prop where
  | given {raw label : String} : c.label = some raw → Text.Names raw label → Labels c m label
  | signature : Nameless c.label → Labels c m m.signature

theorem CircuitSettings.labels_iff {c : CircuitSettings} {m : Method} {label : String} :
    c.Labels m label ↔ c.labelName.getD m.signature = label := by
  unfold labelName
  constructor
  · rintro (⟨hgiven, hnames⟩ | hnone)
    · rw [bind_nonBlank_eq_some.mpr ⟨_, hgiven, hnames⟩]; rfl
    · rw [bind_nonBlank_eq_none.mpr hnone]; rfl
  · rintro rfl
    cases h : c.label.bind Text.nonBlank with
    | none => exact .signature (bind_nonBlank_eq_none.mp h)
    | some label =>
      obtain ⟨raw, hgiven, hnames⟩ := bind_nonBlank_eq_some.mp h
      exact .given hgiven hnames

namespace Dispatcher

variable {d : Dispatcher} {registry : Registry ι} {m : Method} {target : Target}

theorem limitFor_sets {s : AttemptSettings} {limit : AttemptLimit} (h : s.Sets limit) :
    limitFor s = .ok limit := by
  obtain ⟨n, classifier, hpos⟩ := limit
  obtain ⟨rfl, includes, hincludes, rfl⟩ := h
  rw [AttemptSettings.includes_iff] at hincludes
  unfold limitFor AttemptLimit.ofLists AttemptLimit.make
  rw [dif_pos hpos, hincludes]
  simp [Except.mapError]

theorem limitFor_zero {s : AttemptSettings} (h : s.maxAttempts = 0) :
    limitFor s = .error (.invalidSettings (.attemptLimit 0)) := by
  unfold limitFor AttemptLimit.ofLists AttemptLimit.make
  rw [h, dif_neg (Nat.lt_irrefl 0)]; rfl

theorem exists_sets {s : AttemptSettings} (h : s.maxAttempts ≠ 0) : ∃ limit, s.Sets limit :=
  ⟨⟨s.maxAttempts, _, Nat.pos_of_ne_zero h⟩, rfl, _, AttemptSettings.includes_iff.mpr rfl, rfl⟩

/-- The terms that the dispatcher gives a strategy for a method called on a target. -/
def termsOn (d : Dispatcher) (m : Method) (target : Target) (policy : Policy) (backoff : Backoff) :
    Terms :=
  d.termsFor policy backoff (Recoverer.locate d.handlers target m).1

/-- The settings whose attempts count, for a method without a named interceptor. -/
inductive Governs (d : Dispatcher) (m : Method) : AttemptSettings → Prop where
  | retry {retry : RetrySettings} : d.settings.retry m = some retry → Nameless retry.interceptor →
      (retry.stateful = true → d.settings.circuit m = none) → Governs d m retry.toAttemptSettings
  | circuit {retry : RetrySettings} {circuit : CircuitSettings} :
      d.settings.retry m = some retry → Nameless retry.interceptor → retry.stateful = true →
      d.settings.circuit m = some circuit → Governs d m circuit.toAttemptSettings

/-- What a method gets, in the order of precedence. -/
inductive Chosen (d : Dispatcher) (registry : Registry ι) (m : Method) (target : Target) :
    Except CallError (Strategy ι) → Prop where
  | nothing : d.settings.retry m = none → Chosen d registry m target (.ok .none)
  | explicit {retry : RetrySettings} {raw name : String} {i : ι} :
      d.settings.retry m = some retry → retry.interceptor = some raw → Text.Names raw name →
      registry.get? name = some i → Chosen d registry m target (.ok (.explicit name i))
  | missing {retry : RetrySettings} {raw name : String} :
      d.settings.retry m = some retry → retry.interceptor = some raw → Text.Names raw name →
      registry.get? name = none → Chosen d registry m target (.error (.interceptorMissing name))
  | stateless {retry : RetrySettings} {limit : AttemptLimit} :
      d.settings.retry m = some retry → Nameless retry.interceptor → retry.stateful = false →
      retry.toAttemptSettings.Sets limit →
      Chosen d registry m target (.ok (.guarded (.stateless
        (d.termsOn m target (.attempts limit) (Backoff.ofSettings retry.backoff)))))
  | circuit {retry : RetrySettings} {circuit : CircuitSettings} {limit : AttemptLimit}
      {label : String} :
      d.settings.retry m = some retry → Nameless retry.interceptor → retry.stateful = true →
      d.settings.circuit m = some circuit → circuit.toAttemptSettings.Sets limit →
      circuit.Labels m label →
      Chosen d registry m target (.ok (.guarded (.circuit
        (d.termsOn m target
          (.circuit ⟨limit, circuit.openTimeout, circuit.resetTimeout, label⟩) .none)
        label d.ledger)))
  | stateful {retry : RetrySettings} {limit : AttemptLimit} :
      d.settings.retry m = some retry → Nameless retry.interceptor → retry.stateful = true →
      d.settings.circuit m = none → retry.toAttemptSettings.Sets limit →
      Chosen d registry m target (.ok (.guarded (.stateful
        (d.termsOn m target (.attempts limit) (Backoff.ofSettings retry.backoff)) d.keys)))
  | invalid {governing : AttemptSettings} : d.Governs m governing → governing.maxAttempts = 0 →
      Chosen d registry m target (.error (.invalidSettings (.attemptLimit 0)))

/-! ## Resolving comes to what is chosen -/

theorem resolveFresh_named {retry : RetrySettings} (hretry : d.settings.retry m = some retry)
    {name : String} (hname : retry.interceptorName = some name) :
    (d.resolveFresh registry m target).outcome =
      match registry.get? name with
      | some i => .ok (.explicit name i)
      | none => .error (.interceptorMissing name) := by
  unfold resolveFresh strategyFor Registry.resolve
  simp only [hretry, hname]
  cases registry.get? name <;> rfl

theorem resolveFresh_nameless {retry : RetrySettings} (hretry : d.settings.retry m = some retry)
    (hname : Nameless retry.interceptor) :
    (d.resolveFresh registry m target).outcome =
      (d.guardFor m target retry
        (if retry.stateful then d.settings.circuit m else none)).1.map .guarded := by
  have hnone : retry.interceptorName = none := bind_nonBlank_eq_none.mpr hname
  unfold resolveFresh strategyFor
  simp only [hretry, hnone]
  cases (d.guardFor m target retry
    (if retry.stateful then d.settings.circuit m else none)).1 <;> rfl

theorem attemptGuard_sets {retry : RetrySettings} {limit : AttemptLimit}
    (h : retry.toAttemptSettings.Sets limit) (r : Option Recoverer) :
    d.attemptGuard retry r =
      let terms := d.termsFor (.attempts limit) (Backoff.ofSettings retry.backoff) r
      .ok (if retry.stateful then .stateful terms d.keys else .stateless terms) := by
  unfold attemptGuard
  rw [limitFor_sets h]; rfl

theorem circuitGuard_sets {circuit : CircuitSettings} {limit : AttemptLimit} {label : String}
    (h : circuit.toAttemptSettings.Sets limit) (hlabel : circuit.Labels m label)
    (r : Option Recoverer) :
    d.circuitGuard m circuit r = .ok (.circuit (d.termsFor
      (.circuit ⟨limit, circuit.openTimeout, circuit.resetTimeout, label⟩) .none r) label
        d.ledger) := by
  unfold circuitGuard
  rw [limitFor_sets h, CircuitSettings.labels_iff.mp hlabel]; rfl

/-- Settings without attempts are refused, whichever of them govern. -/
theorem Governs.refused {governing : AttemptSettings} (h : d.Governs m governing)
    (hzero : governing.maxAttempts = 0) (registry : Registry ι) (target : Target) :
    (d.resolveFresh registry m target).outcome =
      .error (.invalidSettings (.attemptLimit 0)) := by
  have hlimit := limitFor_zero hzero
  cases h with
  | @retry retry hretry hname hcircuit =>
    rw [resolveFresh_nameless hretry hname, guardFor_guard]
    have hattempts (r : Option Recoverer) :
        d.attemptGuard retry r = .error (.invalidSettings (.attemptLimit 0)) := by
      unfold attemptGuard
      rw [hlimit]; rfl
    cases hs : retry.stateful with
    | false => rw [if_neg nofun, hattempts]; rfl
    | true => rw [if_pos rfl, hcircuit hs, hattempts]; rfl
  | circuit hretry hname hs hcircuit =>
    rw [resolveFresh_nameless hretry hname, guardFor_guard, hs, if_pos rfl, hcircuit]
    unfold circuitGuard
    dsimp only
    rw [hlimit]; rfl

theorem Chosen.fresh {o : Except CallError (Strategy ι)} (h : d.Chosen registry m target o) :
    (d.resolveFresh registry m target).outcome = o := by
  cases h with
  | nothing h => unfold resolveFresh; rw [h]
  | explicit hretry hgiven hnames hfound =>
    rw [resolveFresh_named hretry (bind_nonBlank_eq_some.mpr ⟨_, hgiven, hnames⟩), hfound]
  | missing hretry hgiven hnames hfound =>
    rw [resolveFresh_named hretry (bind_nonBlank_eq_some.mpr ⟨_, hgiven, hnames⟩), hfound]
  | stateless hretry hname hs hsets =>
    rw [resolveFresh_nameless hretry hname, guardFor_guard, attemptGuard_sets hsets, hs]; rfl
  | circuit hretry hname hs hcircuit hsets hlabel =>
    rw [resolveFresh_nameless hretry hname, guardFor_guard, hs, if_pos rfl, hcircuit]
    dsimp only
    rw [circuitGuard_sets hsets hlabel]; rfl
  | stateful hretry hname hs hcircuit hsets =>
    rw [resolveFresh_nameless hretry hname, guardFor_guard, attemptGuard_sets hsets, hs, if_pos rfl,
      hcircuit]
    rfl
  | invalid hgoverns hzero => exact hgoverns.refused hzero registry target

/-- Something is chosen for every method. -/
theorem exists_chosen (d : Dispatcher) (registry : Registry ι) (m : Method) (target : Target) :
    ∃ o, d.Chosen registry m target o := by
  cases hretry : d.settings.retry m with
  | none => exact ⟨_, .nothing hretry⟩
  | some retry =>
    cases hname : retry.interceptor.bind Text.nonBlank with
    | some name =>
      obtain ⟨raw, hgiven, hnames⟩ := bind_nonBlank_eq_some.mp hname
      cases hfound : registry.get? name with
      | some i => exact ⟨_, .explicit hretry hgiven hnames hfound⟩
      | none => exact ⟨_, .missing hretry hgiven hnames hfound⟩
    | none =>
      have hname := bind_nonBlank_eq_none.mp hname
      cases hs : retry.stateful with
      | false =>
        by_cases hzero : retry.maxAttempts = 0
        · exact ⟨_, .invalid (.retry hretry hname fun h => by rw [hs] at h; cases h) hzero⟩
        · obtain ⟨limit, hsets⟩ := exists_sets hzero
          exact ⟨_, .stateless hretry hname hs hsets⟩
      | true =>
        cases hcircuit : d.settings.circuit m with
        | none =>
          by_cases hzero : retry.maxAttempts = 0
          · exact ⟨_, .invalid (.retry hretry hname fun _ => hcircuit) hzero⟩
          · obtain ⟨limit, hsets⟩ := exists_sets hzero
            exact ⟨_, .stateful hretry hname hs hcircuit hsets⟩
        | some circuit =>
          by_cases hzero : circuit.maxAttempts = 0
          · exact ⟨_, .invalid (.circuit hretry hname hs hcircuit) hzero⟩
          · obtain ⟨limit, hsets⟩ := exists_sets hzero
            exact ⟨_, .circuit hretry hname hs hcircuit hsets
              (CircuitSettings.labels_iff.mpr rfl)⟩

/-- **A method gets what is chosen for it**, and one thing only is. -/
theorem chosen_iff {o : Except CallError (Strategy ι)} :
    (d.resolveFresh registry m target).outcome = o ↔ d.Chosen registry m target o := by
  constructor
  · rintro rfl
    obtain ⟨o, ho⟩ := exists_chosen d registry m target
    rw [ho.fresh]; exact ho
  · exact Chosen.fresh

/-- **Settings are invalid exactly if those that govern allow no attempt.** -/
theorem chosen_invalid {e : PolicyError} :
    d.Chosen registry m target (.error (.invalidSettings e)) ↔
      e = .attemptLimit 0 ∧ ∃ governing, d.Governs m governing ∧ governing.maxAttempts = 0 := by
  constructor
  · intro h
    cases h with
    | invalid hgoverns hzero => exact ⟨rfl, _, hgoverns, hzero⟩
  · rintro ⟨rfl, governing, hgoverns, hzero⟩
    exact .invalid hgoverns hzero

/-- **Resolving implements the order of precedence.** Where nothing is kept for a method, resolving
it ends with exactly what is chosen by its settings, the circuit settings, and the interceptors that
are registered; and it ends with invalid settings exactly if the settings that govern allow no
attempt, while a named interceptor, or none to be found, does not depend on the attempts. -/
theorem resolve_chosen {s : Session ι γ} (h : d.kept? s.resolved m = none) (target : Target) :
    ∃ outcome t, (d.resolve m target).Returns s outcome t ∧
      (∀ o, outcome.map (·.strategy) = o ↔
        d.Chosen (s.registries.get d.registry) m target o) ∧
      ((∃ e, outcome = .error (.invalidSettings e)) ↔
        ∃ governing, d.Governs m governing ∧ governing.maxAttempts = 0) := by
  refine ⟨_, _, d.resolve_made h target, fun o => ?_, ?_⟩
  · rw [← chosen_iff]
    cases (d.resolveFresh (s.registries.get d.registry) m target).outcome <;> rfl
  · constructor
    · rintro ⟨e, he⟩
      cases ho : (d.resolveFresh (s.registries.get d.registry) m target).outcome with
      | ok strategy => rw [ho] at he; cases he
      | error e' =>
        rw [ho] at he
        cases he
        exact (chosen_invalid.mp (chosen_iff.mp ho)).2
    · rintro ⟨governing, hgoverns, hzero⟩
      exact ⟨.attemptLimit 0, by rw [hgoverns.refused hzero]; rfl⟩

/-- A dispatcher for what is declared, without handlers and rules for keys. -/
def plain (ds : List Declaration) : Dispatcher where
  settings := (SettingsTable.ofDeclarations ds).source
  handlers := fun _ => []
  sleeper := .instant
  executor := .attempting 0
  keys := ⟨none, none⟩
  ledger := 0
  registry := 0
  resolved := 0
  lookups := 0

def restock : Method := ⟨"Stock", "restock", []⟩

/-- The retry settings allow no attempt, but the circuit settings govern. -/
def restocker : Dispatcher := plain
  [.onMethod restock
    { RetrySettings.statefulDefault with maxAttempts := 0, interceptor := some "  " },
  .circuitOnMethod restock { CircuitSettings.default with label := some " stock " }]

theorem resolve_chosen_restock :
    ∃ outcome t, (restocker.resolve restock ⟨"Stock", none⟩).Returns
        (Session.begin () : Session Unit Unit) outcome t ∧
      (∀ o, outcome.map (·.strategy) = o ↔
        restocker.Chosen Dict.empty restock ⟨"Stock", none⟩ o) ∧
      ((∃ e, outcome = .error (.invalidSettings e)) ↔
        ∃ governing, restocker.Governs restock governing ∧ governing.maxAttempts = 0) :=
  resolve_chosen rfl ⟨"Stock", none⟩

/-- It gets the circuit of the trimmed label. -/
example : (restocker.resolveFresh (Dict.empty : Registry Unit) restock ⟨"Stock", none⟩).outcome =
    .ok (.guarded (.circuit ⟨.circuit ⟨⟨3, .retryAll, by decide⟩, Duration.ofMillis 5000,
      Duration.ofMillis 20000, "stock"⟩, .none, .instant, none, .attempting 0⟩ "stock" 0)) := rfl

end Dispatcher

end CallGuard
