import CallGuard.Settings.Table
import CallGuard.Proofs.Circuit.Methods
import CallGuard.Proofs.Circuit.Opening
import CallGuard.Proofs.Dispatch.Guards
import CallGuard.Proofs.Runs
/-! # Methods that share a circuit

Methods whose circuits have the same label share one context, but each of them brings its own limit
and its own timeouts, and asks its own limit whether the circuit is open. So an open circuit holds
the calls of exactly those methods back whose own limit refuses what has been counted. -/

namespace CallGuard

variable {ι γ : Type}

namespace Dispatch

/-- Makes a dispatch; reports on it and on the circuit with a label. -/
def visit (patience : Nat) (intercept : ι → Call ι (Notes γ) → Action ι (Notes γ) Result)
    (d : Dispatcher) (i : Nat) (label : String) (r : Dispatch ι γ) : Action ι γ Visit := do
  r.before
  r.call.visit i (Guard.circuitKey label) (d.dispatch patience intercept)

/-- What the dispatch does apart from its guarded call ends, leaves the circuit with the label alone
and does not upset the strategies of the dispatcher; its target is one of the method's `origins`. -/
structure Sequential (r : Dispatch ι γ) (d : Dispatcher) (origins : Method → Target → Prop)
    (i : Nat) (label : String) : Prop where
  origin : origins r.call.method r.call.target
  before_ends : r.before.Ends
  before_spares : r.before.Spares i (Guard.circuitKey label)
  before_keeps : r.before.Keeps (d.Settled origins)
  call_ends : r.call.proceed.Ends
  call_spares : r.call.proceed.Spares i (Guard.circuitKey label)
  call_keeps : r.call.proceed.Keeps (d.Settled origins)

/-- The dispatch is served by the circuit of its method. -/
def Through (d : Dispatcher) (origins : Method → Target → Prop) (r : Dispatch ι γ) (v : Visit) :
    Prop :=
  ∃ c origin, d.circuitOf r.call.method = some c ∧ origins r.call.method origin ∧
    Served (d.circuitTerms c r.call.method origin) r.call.arguments v

/-- The dispatch is not attempted: it is recovered from the failure that is kept, or told that the
circuit is open. -/
def Rejected (d : Dispatcher) (origins : Method → Target → Prop) (label : String) (x : Context)
    (r : Dispatch ι γ) (v : Visit) : Prop :=
  v.attempts = [] ∧ ∃ origin last, origins r.call.method origin ∧ x.last = some last ∧ v.result =
    match (Recoverer.locate d.handlers origin r.call.method).1 with
    | some recoverer => (recoverer.recover r.call.arguments last).1.mapError .failed
    | none => .error (.circuitOpen label)

variable {d : Dispatcher} {origins : Method → Target → Prop} {i : Nat} {label : String}
  {r : Dispatch ι γ} {s : Session ι γ} {x : Context} {c : Circuit} {v : Visit}

/-- What is kept while dispatches are made. -/
def Ready (d : Dispatcher) (origins : Method → Target → Prop) (i : Nat) (s : Session ι γ) : Prop :=
  (s.ledgers.get i).Sound ∧ d.Settled origins s.resolved

theorem visit_through (patience : Nat)
    (intercept : ι → Call ι (Notes γ) → Action ι (Notes γ) Result)
    (h : r.Sequential d origins i label) (hexec : d.executor = .attempting i)
    (hc : ∃ c, d.circuitOf r.call.method = some c ∧ c.label = label) (hs : Ready d origins i s) :
    ∃ v t, (r.visit patience intercept d i label).Returns s v t ∧ Ready d origins i t ∧
      Links (Through d origins) ((s.ledgers.get i).get? (Guard.circuitKey label)) (r, v)
        ((t.ledgers.get i).get? (Guard.circuitKey label)) := by
  obtain ⟨c, hm, rfl⟩ := hc
  obtain ⟨⟨⟩, u, hu⟩ := h.before_ends s
  obtain ⟨hus, huk⟩ := h.before_spares s () u hu hs.1
  have huset := h.before_keeps s () u hu hs.2
  obtain ⟨result, t, origin, ht, horigin, hserved, hts, htset⟩ :=
    Dispatcher.dispatch_served (s := u.noting) patience intercept hm hexec hus huset h.origin rfl
      rfl h.call_ends h.call_spares h.call_keeps
  refine ⟨_, _, hu.bind (Call.visit_returns ht), ⟨hts, htset⟩, ?_, rfl, c, origin, hm, horigin,
    hserved⟩
  change (u.ledgers.get i).get? (Guard.circuitKey c.label) = _
  rw [hus.get?_eq, huk, hs.1.get?_eq]

/-- While a circuit is open, the limit of the method alone decides about a dispatch. -/
theorem served_open {terms : Terms} {arguments : List Json} (hv : Served terms arguments v)
    (hp : terms.policy = .circuit c) (hfound : v.found = some x) (ho : x.isOpen = true)
    (ht : Duration.ofMillis (v.asked - x.started) ≤ c.resetTimeout) :
    (c.attempts.allows x = true → v.attempts ≠ []) ∧
    (c.attempts.allows x = false → v.attempts = [] ∧ v.left = some x ∧ ∃ last,
      x.last = some last ∧ v.result = terms.recovery arguments last (.circuitOpen c.label)) := by
  obtain ⟨hanswer, hsame⟩ := Circuit.check_open ho (Duration.not_lt.mpr ht)
  have hcheck : v.admission terms.policy = c.check x v.asked := by
    unfold Visit.admission; rw [hp, hfound]; rfl
  rw [← hcheck] at hanswer hsame
  cases hv with
  | full n hnone => rw [hfound] at hnone; cases hnone
  | refused last hno hlast hatt hpau hres hleft =>
    refine ⟨fun ha => ?_, fun ha => ⟨hatt, ?_, last, hsame ha ▸ hlast, ?_⟩⟩
    · rw [hanswer, ha] at hno; cases hno
    · rw [hleft, hsame ha, hp]; rfl
    · rw [hres]; unfold Terms.refusal; rw [hp]
  | succeeded value ended hyes hatt =>
    exact ⟨fun _ => by rw [hatt]; nofun, fun ha => absurd (hanswer.symm.trans hyes) (by simp [ha])⟩
  | failed f ended words after hyes hatt =>
    exact ⟨fun _ => by rw [hatt]; nofun, fun ha => absurd (hanswer.symm.trans hyes) (by simp [ha])⟩

/-- The dispatches that an open circuit is asked about within `timeout` are all rejected, if and
only if each of them meets a limit that refuses what is kept. -/
theorem rejected_iff {timeout : Duration} {later : List (Dispatch ι γ × Visit)}
    {final : Option Context} (htrace : Traces (Links (Through d origins)) (some x) later final)
    (ho : x.isOpen = true)
    (hcircuit : ∀ e ∈ later, ∀ c, d.circuitOf e.1.call.method = some c →
      c.label = label ∧ timeout ≤ c.resetTimeout)
    (hsorted : later.Pairwise fun e e' => e.2.asked ≤ e'.2.asked) :
    (∀ e ∈ later, Duration.ofMillis (e.2.asked - x.started) ≤ timeout →
        Rejected d origins label x e.1 e.2) ↔
      ∀ e ∈ later, Duration.ofMillis (e.2.asked - x.started) ≤ timeout →
        ∀ c, d.circuitOf e.1.call.method = some c → c.attempts.allows x = false := by
  induction later with
  | nil => simp
  | cons e es ih =>
    obtain ⟨hfirst, hrest⟩ := List.pairwise_cons.mp hsorted
    cases htrace with
    | cons hlink htrace =>
      obtain ⟨hfound, hleft, c, origin, hm, horigin, hserved⟩ := hlink
      obtain ⟨hlabel, htimeout⟩ := hcircuit e (.head _) c hm
      have hone : ∀ c', d.circuitOf e.1.call.method = some c' → c' = c := fun c' h =>
        Option.some.inj (h.symm.trans hm)
      rw [List.forall_mem_cons, List.forall_mem_cons]
      by_cases hdue : Duration.ofMillis (e.2.asked - x.started) ≤ timeout
      · obtain ⟨hyes, hno⟩ := served_open hserved rfl hfound ho (Duration.le_trans hdue htimeout)
        cases ha : c.attempts.allows x with
        | true =>
          constructor
          · rintro ⟨h, -⟩; exact absurd (h hdue).1 (hyes ha)
          · rintro ⟨h, -⟩; exact absurd (h hdue c hm) (by rw [ha]; decide)
        | false =>
          obtain ⟨hatt, hkept, last, hlast, hres⟩ := hno ha
          rw [← hleft, hkept] at htrace
          rw [ih htrace (fun e he => hcircuit e (.tail _ he)) hrest]
          refine and_congr ⟨fun _ _ c' hc' => hone c' hc' ▸ ha, fun _ _ => ?_⟩ Iff.rfl
          exact ⟨hatt, origin, last, horigin, hlast, hlabel ▸ hres⟩
      · -- a dispatch after the timeout is followed only by such dispatches
        have hlate : ∀ e' ∈ es, ¬ Duration.ofMillis (e'.2.asked - x.started) ≤ timeout := by
          intro e' he' hin
          have hle := hfirst e' he'
          exact hdue (Duration.le_trans (Duration.ofMillis_le_ofMillis (by omega)) hin)
        constructor
        · intro _
          exact ⟨fun h => absurd h hdue, fun e' he' h => absurd h (hlate e' he')⟩
        · intro _
          exact ⟨fun h => absurd h hdue, fun e' he' h => absurd h (hlate e' he')⟩

/-- **When an open circuit holds its methods back.** Methods with circuits of one label are
dispatched to in any order. After a dispatch that leaves the circuit open since `x.started`, every
dispatch that asks within `timeout`, which no reset timeout falls short of, is rejected, if and only
if each of them is to a method whose own limit refuses what the circuit has kept. -/
theorem rejected_while_open_iff (patience : Nat)
    (intercept : ι → Call ι (Notes γ) → Action ι (Notes γ) Result) {timeout : Duration}
    {rounds : List (Dispatch ι γ)} (hexec : d.executor = .attempting i)
    (hcircuit : ∀ r ∈ rounds, ∃ c, d.circuitOf r.call.method = some c ∧ c.label = label ∧
      timeout ≤ c.resetTimeout)
    (hseq : ∀ r ∈ rounds, r.Sequential d origins i label) (hs : (s.ledgers.get i).Sound)
    (hset : d.Settled origins s.resolved) :
    ∃ seen t, (Action.inOrder (visit patience intercept d i label) rounds).Returns s seen t ∧
      seen.map Prod.fst = rounds ∧
      ∀ earlier opener later x, seen = earlier ++ opener :: later → opener.2.left = some x →
        x.isOpen = true → (later.Pairwise fun e e' => e.2.asked ≤ e'.2.asked) →
        ((∀ e ∈ later, Duration.ofMillis (e.2.asked - x.started) ≤ timeout →
            Rejected d origins label x e.1 e.2) ↔
          ∀ e ∈ later, Duration.ofMillis (e.2.asked - x.started) ≤ timeout →
            ∀ c, d.circuitOf e.1.call.method = some c → c.attempts.allows x = false) := by
  obtain ⟨seen, t, hplay, hmap, -, hchain⟩ := Action.inOrder_chained (fun _ => true)
    (Ready d origins i) (fun s => (s.ledgers.get i).get? (Guard.circuitKey label))
    (fun r hr s hs => by
      obtain ⟨c, hm, hl, -⟩ := hcircuit r hr
      obtain ⟨v, t, hv, ht, hlink⟩ :=
        visit_through patience intercept (hseq r hr) hexec ⟨c, hm, hl⟩ hs
      exact ⟨v, t, hv, ht, by rw [if_pos rfl]; exact hlink⟩) ⟨hs, hset⟩
  rw [List.filter_eq_self.mpr (fun _ _ => rfl)] at hchain
  refine ⟨seen, t, hplay, hmap, ?_⟩
  rintro earlier opener later x rfl hleft ho hsorted
  obtain ⟨_, -, htrace⟩ := hchain.append
  cases htrace with
  | cons hlink htrace =>
    obtain ⟨-, hmid, -⟩ := hlink
    rw [← hmid, hleft] at htrace
    refine rejected_iff htrace ho (fun e he c hc => ?_) hsorted
    have hmem : e.1 ∈ rounds := by
      rw [← hmap]
      exact List.mem_map_of_mem (List.mem_append_right _ (.tail _ he))
    obtain ⟨c', hc', hlabel, htimeout⟩ := hcircuit e.1 hmem
    obtain rfl : c' = c := Option.some.inj (hc'.symm.trans hc)
    exact ⟨hlabel, htimeout⟩

/-! ## Two methods of one circuit -/

def stock (name : String) : Method := ⟨"Stock", name, []⟩

/-- One failure of `reserve` opens the circuit; `count` has three attempts in it. -/
def stockKeeper : Dispatcher where
  settings := (SettingsTable.ofDeclarations
    [.circuitOnMethod (stock "reserve")
      { CircuitSettings.default with maxAttempts := 1, label := some "inventory" },
    .circuitOnMethod (stock "count")
      { CircuitSettings.default with label := some "inventory" }]).source
  handlers := fun _ => []
  sleeper := .instant
  executor := .attempting 0
  keys := ⟨none, none⟩
  ledger := 0
  registry := 0
  resolved := 0
  lookups := 0

/-- A dispatch that comes to one outcome after some time. -/
def simple (name : String) (outcome : Except Failure Json) : Dispatch Unit Unit where
  before := Action.moveClock (·.advance (Duration.ofMillis 100))
  call := ⟨stock name, ⟨"Stock", none⟩, [], pure outcome⟩

def reserveThenCount : List (Dispatch Unit Unit) :=
  [simple "reserve" (.error ⟨⟨.root "Down" "Down", "down"⟩, []⟩), simple "count" (.ok .null)]

def inventory (limit : Nat) (h : 0 < limit) : Circuit :=
  ⟨⟨limit, .retryAll, h⟩, Duration.ofMillis 5000, Duration.ofMillis 20000, "inventory"⟩

def onStock (_ : Method) (target : Target) : Prop := target = ⟨"Stock", none⟩

theorem simple_sequential (d : Dispatcher) (i : Nat) (label name : String)
    (outcome : Except Failure Json) : (simple name outcome).Sequential d onStock i label where
  origin := rfl
  before_ends s := ⟨(), _, rfl⟩
  before_spares s _ t h hs := by cases h; exact ⟨hs, rfl⟩
  before_keeps s _ t h hs := by cases h; exact hs
  call_ends s := ⟨outcome, s, rfl⟩
  call_spares s _ t h hs := by cases h; exact ⟨hs, rfl⟩
  call_keeps s _ t h hs := by cases h; exact hs

def stockVisits (rounds : List (Dispatch Unit Unit)) :
    Action Unit Unit (List (Dispatch Unit Unit × Visit)) :=
  Action.inOrder (visit 0 (fun _ call => call.once) stockKeeper 0 "inventory") rounds

theorem rejected_while_open_iff_stock :
    ∃ seen t, (stockVisits reserveThenCount).Returns (Session.begin ()) seen t ∧
      seen.map Prod.fst = reserveThenCount ∧
      ∀ earlier opener later x, seen = earlier ++ opener :: later → opener.2.left = some x →
        x.isOpen = true → (later.Pairwise fun e e' => e.2.asked ≤ e'.2.asked) →
        ((∀ e ∈ later, Duration.ofMillis (e.2.asked - x.started) ≤ Duration.ofMillis 20000 →
            Rejected stockKeeper onStock "inventory" x e.1 e.2) ↔
          ∀ e ∈ later, Duration.ofMillis (e.2.asked - x.started) ≤ Duration.ofMillis 20000 →
            ∀ c, stockKeeper.circuitOf e.1.call.method = some c → c.attempts.allows x = false) := by
  have hcircuit : ∀ r ∈ reserveThenCount, ∃ c,
      stockKeeper.circuitOf r.call.method = some c ∧ c.label = "inventory" ∧
        Duration.ofMillis 20000 ≤ c.resetTimeout := by
    intro r hr
    simp only [reserveThenCount, List.mem_cons, List.not_mem_nil, or_false] at hr
    rcases hr with rfl | rfl
    · exact ⟨inventory 1 (by decide), by decide, rfl, by decide⟩
    · exact ⟨inventory 3 (by decide), by decide, rfl, by decide⟩
  have hseq : ∀ r ∈ reserveThenCount, r.Sequential stockKeeper onStock 0 "inventory" := by
    intro r hr
    simp only [reserveThenCount, List.mem_cons, List.not_mem_nil, or_false] at hr
    rcases hr with rfl | rfl <;> exact simple_sequential ..
  exact rejected_while_open_iff 0 _ rfl hcircuit hseq (Ledger.sound_empty _)
    (stockKeeper.settled_empty onStock)

/-- The circuit opens at 100, and a call at 200 goes through it. -/
theorem open_circuit_lets_through :
    ((stockVisits reserveThenCount).run (Session.begin ())).map
        (fun p => p.1.map fun e => (e.2.asked, e.2.attempts.length, e.2.left.map (·.isOpen))) =
      some [(100, 1, some true), (200, 1, some false)] := by decide +kernel

end Dispatch

end CallGuard
