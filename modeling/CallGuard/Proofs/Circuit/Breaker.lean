import CallGuard.Proofs.Runs
/-! # A circuit is a small timed machine

The context of a circuit has a count, a latest failure, a time and a flag, and it is written in many
places; the machine has two states. Closed, it counts the failures of a window; open, it keeps the
failure to tell of. `Shown` links the two: the flag and the attempt limit always agree, so a context
shows exactly one state. One check of the context is one move of the machine, and a run of calls
under one key is a run of the machine. -/

namespace CallGuard

variable {ι γ : Type}

/-- The state of a circuit. -/
inductive Breaker where
  /-- Calls are attempted; so many failures count in the window that began then. -/
  | closed (since failures : Nat)
  /-- Calls are rejected since then, after this failure. -/
  | opened (since : Nat) (last : Failure)
deriving DecidableEq, Repr

namespace Breaker

/-- A call asks for an attempt at `p`. -/
def asked (c : Circuit) (p : Nat) : Breaker → Breaker
  | closed s k => if Duration.ofMillis (p - s) > c.openTimeout then closed p 0 else closed s k
  | opened a f => if Duration.ofMillis (p - a) > c.resetTimeout then closed p 0 else opened a f

/-- An attempt fails at `q`. -/
def fail (c : Circuit) (f : Failure) (q : Nat) : Breaker → Breaker
  | closed s k =>
    if c.attempts.retries f = true ∧ k + 1 < c.attempts.limit then
      if Duration.ofMillis (q - s) > c.openTimeout then closed q 0 else closed s (k + 1)
    else if Duration.ofMillis (q - s) < c.openTimeout then opened q f
    else closed q 0
  | opened a g => opened a g

/-- The pauses after a failure: one if the circuit stays closed. -/
def pauses (terms : Terms) (words : Words) : Breaker → List Pause
  | closed _ k => terms.pausesAfter k words
  | opened _ _ => []

/-- What a call shows, and where it takes the machine. -/
inductive Serves (c : Circuit) (i : Nat) : Breaker → Round ι γ × Visit → Breaker → Prop
  | rejected {b : Breaker} {r : Round ι γ} {v : Visit} {a : Nat} {last : Failure} :
      b.asked c v.asked = opened a last → v.attempts = [] → v.pauses = [] →
      v.result = (r.terms i).recovery r.call.arguments last (.circuitOpen c.label) →
      Serves c i b (r, v) (opened a last)
  | succeeded {b : Breaker} {r : Round ι γ} {v : Visit} {s k ended : Nat} {value : Json} :
      b.asked c v.asked = closed s k → v.attempts = [⟨[], .ok value, ended⟩] → v.pauses = [] →
      v.result = .ok value → Serves c i b (r, v) (closed s k)
  | failed {b : Breaker} {r : Round ι γ} {v : Visit} {s k ended : Nat} {f : Failure}
      {words : Words} :
      b.asked c v.asked = closed s k → v.attempts = [⟨[], .error f, ended⟩] →
      v.pauses = ((closed s k).fail c f ended).pauses (r.terms i) words →
      v.result = .error (.failed f) → Serves c i b (r, v) ((closed s k).fail c f ended)

/-- The context shows the state. -/
def Shown (c : Circuit) (x : Context) : Breaker → Prop
  | closed s k =>
    x.started = s ∧ x.attempts = k ∧ x.isOpen = false ∧ c.attempts.allows x = true
  | opened a f =>
    x.started = a ∧ x.last = some f ∧ x.isOpen = true ∧ c.attempts.allows x = false

variable {c : Circuit} {x : Context} {b : Breaker} {i : Nat}

theorem shown_fresh (c : Circuit) (now : Nat) : (closed now 0).Shown c (Context.fresh now) :=
  ⟨rfl, rfl, rfl, c.attempts.allows_unfailed rfl rfl⟩

theorem shown_restart (c : Circuit) (x : Context) (now : Nat) :
    (closed now 0).Shown c { x.restart now with isOpen := false } :=
  ⟨rfl, rfl, rfl, Circuit.allows_restart c.attempts x now⟩

theorem Shown.allows (h : b.Shown c x) (ha : c.attempts.allows x = true) :
    ∃ s k, b = closed s k := by
  cases b with
  | closed s k => exact ⟨s, k, rfl⟩
  | opened a f => rw [h.2.2.2] at ha; cases ha

theorem Shown.refuses (h : b.Shown c x) (ha : c.attempts.allows x = false) :
    ∃ a f, b = opened a f ∧ x.last = some f := by
  cases b with
  | closed s k => rw [h.2.2.2] at ha; cases ha
  | opened a f => exact ⟨a, f, rfl, h.2.1⟩

/-- The check for admission is a move of the machine. -/
theorem Shown.asked (h : b.Shown c x) (p : Nat) :
    (b.asked c p).Shown c (c.check x p).context := by
  cases b with
  | closed s k =>
    obtain ⟨rfl, rfl, -, ha⟩ := h
    unfold Breaker.asked
    dsimp only
    by_cases ht : Duration.ofMillis (p - x.started) > c.openTimeout
    · rw [if_pos ht, Circuit.check_past_window ha ht]
      exact shown_restart c x p
    · rw [if_neg ht, Circuit.check_in_window ha ht]
      exact ⟨rfl, rfl, rfl, ha⟩
  | opened a f =>
    obtain ⟨rfl, hl, ho, ha⟩ := h
    unfold Breaker.asked
    dsimp only
    by_cases ht : Duration.ofMillis (p - x.started) > c.resetTimeout
    · rw [if_pos ht, Circuit.check_closes ha ho ht]
      exact shown_restart c x p
    · rw [if_neg ht, Circuit.check_stays_open ha ho ht]
      exact ⟨rfl, hl, ho, ha⟩

/-- The check after a failure is a move of the machine. -/
theorem Shown.fail {s k : Nat} (h : (closed s k).Shown c x) (f : Failure) (q : Nat) :
    ((closed s k).fail c f q).Shown c (c.check (x.fail f) q).context := by
  obtain ⟨rfl, rfl, ho, -⟩ := h
  have hallows : c.attempts.allows (x.fail f) = true ↔
      c.attempts.retries f = true ∧ x.attempts + 1 < c.attempts.limit := by
    rw [c.attempts.allows_failed rfl, Bool.and_eq_true, decide_eq_true_iff]
    rfl
  unfold Breaker.fail
  dsimp only
  by_cases ha : c.attempts.retries f = true ∧ x.attempts + 1 < c.attempts.limit
  · rw [if_pos ha]
    by_cases ht : Duration.ofMillis (q - x.started) > c.openTimeout
    · rw [if_pos ht, Circuit.check_past_window (hallows.mpr ha) ht]
      exact shown_restart c (x.fail f) q
    · rw [if_neg ht, Circuit.check_in_window (hallows.mpr ha) ht]
      exact ⟨rfl, rfl, rfl, hallows.mpr ha⟩
  · have hno : c.attempts.allows (x.fail f) = false := by
      rw [← Bool.not_eq_true, hallows]; exact ha
    rw [if_neg ha]
    by_cases ht : Duration.ofMillis (q - x.started) < c.openTimeout
    · rw [if_pos ht, Circuit.check_opens hno ho ht]
      exact ⟨rfl, rfl, rfl, hno⟩
    · rw [if_neg ht, Circuit.check_spread_out hno ho ht]
      exact shown_restart c (x.fail f) q

/-- The failures that a shown state counts are those of the context. -/
theorem Shown.pauses {terms : Terms} {words : Words} (h : b.Shown c x) :
    (if c.attempts.allows x then terms.pausesAfter x.attempts words else []) =
      b.pauses terms words := by
  cases b with
  | closed s k => obtain ⟨-, rfl, -, ha⟩ := h; rw [if_pos ha]; rfl
  | opened a f => rw [if_neg (by rw [h.2.2.2]; decide)]; rfl

/-- **A call on the terms of the circuit is a step of the machine.** -/
theorem Shown.serve {r : Round ι γ} {v : Visit}
    (hx : b.Shown c (v.found.getD (Context.fresh v.begun))) (hp : r.policy = .circuit c)
    (hv : Served (r.terms i) r.call.arguments v)
    (hroom : v.turnedAway = false) :
    ∃ b', Serves c i b (r, v) b' ∧ ∃ y, v.left = some y ∧ b'.Shown c y := by
  have hterms : (r.terms i).policy = .circuit c := hp
  have hasked := hx.asked v.asked
  have hshared : (Policy.circuit c).isShared = true := rfl
  have hsettled : ∀ y now, ((Policy.circuit c).check y now).allowed =
      c.attempts.allows ((Policy.circuit c).check y now).context :=
    fun y now => (c.check_settled y now).1
  cases hv with
  | full n _ _ _ hfull => unfold Visit.turnedAway at hroom; rw [hfull] at hroom; cases hroom
  | refused last hno hlast hatt hpau hres hleft =>
    rw [hterms] at hno hlast hleft
    rw [hshared, if_pos rfl] at hleft
    obtain ⟨a, f, hb, hf⟩ := hasked.refuses ((hsettled _ _).symm.trans hno)
    obtain rfl : f = last := Option.some.inj (hf.symm.trans hlast)
    refine ⟨opened a f, .rejected hb hatt hpau ?_, _, hleft, hb ▸ hasked⟩
    rw [hres]
    unfold Terms.refusal
    rw [hterms]
  | succeeded value ended hyes hatt hpau hres hleft =>
    rw [hterms] at hyes hleft
    rw [hshared, if_pos rfl] at hleft
    obtain ⟨s, k, hb⟩ := hasked.allows ((hsettled _ _).symm.trans hyes)
    exact ⟨closed s k, .succeeded hb hatt hpau hres, _, hleft, hb ▸ hasked⟩
  | failed f ended words after hyes hatt hres hafter hleft hpau =>
    rw [hterms] at hyes hafter
    obtain ⟨s, k, hb⟩ := hasked.allows ((hsettled _ _).symm.trans hyes)
    rw [hb] at hasked
    have hnext : ((closed s k).fail c f ended).Shown c after.context := by
      rw [hafter]; exact hasked.fail f ended
    have hagain : after.allowed = c.attempts.allows after.context := by
      rw [hafter]; exact hsettled _ _
    rw [hagain, hnext.pauses] at hpau
    exact ⟨_, .failed hb hatt hpau hres, _, hleft, hnext⟩

/-- **Calls through a circuit run the machine.** The calls under one key, all on the terms of one
circuit and never short of room, run the machine from a closed window that begins with the first of
them; calls under other keys may come in between. -/
theorem play_traces (patience : Nat) {key : String} {rounds : List (Round ι γ)}
    (hseq : ∀ r ∈ rounds, r.Sequential i key)
    (hpolicy : ∀ r ∈ rounds, r.key = key → r.policy = .circuit c) {s : Session ι γ}
    (hs : (s.ledgers.get i).Sound) (hnew : (s.ledgers.get i).get? key = none) :
    ∃ seen t, (play patience i rounds).Returns s seen t ∧ seen.map Prod.fst = rounds ∧
      ((∀ e ∈ under key seen, e.2.turnedAway = false) →
        ∃ created b, (∀ e ∈ (under key seen).head?, e.2.begun = created) ∧
          Traces (fun b e b' => Serves c i b e b' ∧ ∃ y, e.2.left = some y ∧ b'.Shown c y)
            (closed created 0) (under key seen) b) := by
  obtain ⟨seen, t, hplay, hmap, -, hchain⟩ := play_chained patience hseq hs
  refine ⟨seen, t, hplay, hmap, fun hroom => ?_⟩
  have hserve : ∀ e ∈ under key seen, ∀ {b x},
      b.Shown c (e.2.found.getD (Context.fresh e.2.begun)) → e.2.left = x →
      Served (e.1.terms i) e.1.call.arguments e.2 →
      ∃ b', (Serves c i b e b' ∧ ∃ y, e.2.left = some y ∧ b'.Shown c y) ∧
        ∃ y, x = some y ∧ b'.Shown c y := by
    rintro e he b x hb rfl hserved
    obtain ⟨hmem, hkey⟩ := of_under hmap he
    obtain ⟨b', hstep, hleft⟩ := hb.serve (hpolicy e.1 hmem hkey) hserved (hroom e he)
    exact ⟨b', ⟨hstep, hleft⟩, hleft⟩
  rw [hnew] at hchain
  generalize (t.ledgers.get i).get? key = final at hchain
  cases hu : under key seen with
  | nil => exact ⟨0, closed 0 0, by simp, .nil⟩
  | cons e es =>
    rw [hu] at hchain hserve
    cases hchain with
    | cons hlink hchain =>
      obtain ⟨hfound, hleft, hserved⟩ := hlink
      -- the first call finds nothing, and a new context shows the machine at its start
      have hfresh := shown_fresh c e.2.begun
      obtain ⟨b, hstep, hshown⟩ := hserve e (.head _) (by rw [hfound]; exact hfresh) hleft hserved
      obtain ⟨b', hrest, -⟩ := hchain.simulate (fun x b => ∃ y, x = some y ∧ b.Shown c y)
        (fun b e b' => Serves c i b e b' ∧ ∃ y, e.2.left = some y ∧ b'.Shown c y)
        (fun e he _ _ _ ⟨y, hy, hb⟩ ⟨hf, hl, hv⟩ =>
          hserve e (.tail _ he) (by rw [hf, hy]; exact hb) hl hv) hshown
      exact ⟨e.2.begun, b', by simp, .cons hstep hrest⟩

/-- Used up by one failure. -/
def touchy : Circuit :=
  ⟨⟨1, .retryAll, Nat.one_pos⟩, Duration.ofMillis 5000, Duration.ofMillis 20000, "stock"⟩

/-- A failing call, and one that would succeed. -/
def outage : List (Round Unit Unit) :=
  [.simple (.circuit touchy) (Guard.circuitKey "stock") (Duration.ofMillis 100)
      (.error ⟨⟨.root "Down" "Down", "down"⟩, []⟩),
    .simple (.circuit touchy) (Guard.circuitKey "stock") (Duration.ofMillis 100) (.ok .null)]

theorem play_traces_outage :
    ∃ seen t, (play 0 0 outage).Returns (Session.begin ()) seen t ∧ seen.map Prod.fst = outage ∧
      ∃ created b, (∀ e ∈ (under (Guard.circuitKey "stock") seen).head?, e.2.begun = created) ∧
        Traces (fun b e b' => Serves touchy 0 b e b' ∧ ∃ y, e.2.left = some y ∧ b'.Shown touchy y)
          (closed created 0) (under (Guard.circuitKey "stock") seen) b := by
  have hseq : ∀ r ∈ outage, r.Sequential 0 (Guard.circuitKey "stock") := by
    intro r hr
    simp only [outage, List.mem_cons, List.not_mem_nil, or_false] at hr
    rcases hr with rfl | rfl <;> exact Round.simple_sequential ..
  have hpolicy : ∀ r ∈ outage, r.key = Guard.circuitKey "stock" → r.policy = .circuit touchy := by
    intro r hr _
    simp only [outage, List.mem_cons, List.not_mem_nil, or_false] at hr
    rcases hr with rfl | rfl <;> rfl
  have hroom : ((play 0 0 outage).run (Session.begin ())).all
      (fun p => p.1.all fun e => !e.2.turnedAway) = true := by decide +kernel
  obtain ⟨seen, t, hplay, hmap, htraces⟩ := play_traces 0 hseq hpolicy (s := Session.begin ())
    (Ledger.sound_empty _) rfl
  exact ⟨seen, t, hplay, hmap, htraces (housed_of_run hplay hroom)⟩

end Breaker

end CallGuard
