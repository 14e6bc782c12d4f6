import CallGuard.Proofs.Ledger.Effects
/-! # A circuit has one context, which counts every failure once

Neither success nor refusal drops the entry of a circuit, so once it is stored the key keeps its
sequence, and every call under way reports to it. Its context therefore tells of all failures of
calls through the circuit, up to the last check that began a new window: it counts them, and keeps
the latest. This needs nothing of the circuits that share the key but that they are circuits. -/

namespace CallGuard

/-! ## What a context tells of -/

/-- It counts these failures, the latest first, and keeps the latest. -/
def Context.Tells (x : Context) (fs : List Failure) : Prop :=
  x.attempts = fs.length ∧ x.last = fs.head?

namespace Context.Tells

variable {x : Context} {fs : List Failure}

theorem fresh (now : Nat) : (Context.fresh now).Tells [] := ⟨rfl, rfl⟩

theorem fail (h : x.Tells fs) (f : Failure) : (x.fail f).Tells (f :: fs) :=
  ⟨congrArg (· + 1) h.1, rfl⟩

end Context.Tells

namespace Circuit

/-- Whether a check begins a new window: the circuit has been open past the reset timeout, or the
window is past the open timeout. -/
def renews (c : Circuit) (x : Context) (now : Nat) : Bool :=
  if c.attempts.allows x then decide (age x now > c.openTimeout)
  else if x.isOpen then decide (age x now > c.resetTimeout)
  else !decide (age x now < c.openTimeout)

/-- A check begins a new window, or leaves what the context tells of. -/
theorem check_renews (c : Circuit) (x : Context) (now : Nat) :
    (c.renews x now = true ∧
      (c.check x now).context = { x.restart now with isOpen := false }) ∨
    (c.renews x now = false ∧ (c.check x now).context.attempts = x.attempts ∧
      (c.check x now).context.last = x.last) := by
  have hcheck := c.checked x now
  generalize c.check x now = check at hcheck ⊢
  unfold renews
  cases hcheck with
  | inWindow ha ht => exact .inr ⟨by simp [ha, ht], rfl, rfl⟩
  | pastWindow ha ht => exact .inl ⟨by simp [ha, ht], rfl⟩
  | staysOpen ha ho ht => exact .inr ⟨by simp [ha, ho, ht], rfl, rfl⟩
  | closes ha ho ht => exact .inl ⟨by simp [ha, ho, ht], rfl⟩
  | opens ha ho ht => exact .inr ⟨by simp [ha, ho, ht], rfl, rfl⟩
  | spreadOut ha ho ht => exact .inl ⟨by simp [ha, ho, ht], rfl⟩

end Circuit

namespace Policy

/-- Whether a check forgets the failures. -/
def renews : Policy → Context → Nat → Bool
  | .attempts _, _, _ => false
  | .circuit c, x, now => c.renews x now

theorem check_tells (p : Policy) {x : Context} {fs : List Failure} (h : x.Tells fs) (now : Nat) :
    (p.check x now).context.Tells (if p.renews x now then [] else fs) := by
  cases p with
  | attempts limit => exact h
  | circuit c =>
    change (c.check x now).context.Tells (if c.renews x now then [] else fs)
    rcases c.check_renews x now with ⟨hyes, hc⟩ | ⟨hno, hattempts, hlast⟩
    · rw [hyes, if_pos rfl]
      exact ⟨congrArg Context.attempts hc, congrArg Context.last hc⟩
    · rw [hno, if_neg nofun]
      exact ⟨hattempts.trans h.1, hlast.trans h.2⟩

end Policy

/-- Wherever it asks under the key, it asks a circuit and sets no attempts aside. -/
def Move.ForCircuits (key : String) : Move → Prop
  | .asks k p refresh _ _ => k = key → p.isShared = true ∧ refresh = false
  | _ => True

/-- Calls through circuits, and any calls under other keys, make no other moves. -/
theorem Execution.stateful_forCircuits {ι γ : Type} {i : Nat} {call : Call ι γ} {k : String}
    {terms : Terms} {key : RetryKey}
    (hkey : key.key = k → terms.policy.isShared = true ∧ key.refresh = false)
    (hcall : call.proceed.MovesOnly (Move.ForCircuits k) i) :
    (stateful i terms key call).MovesOnly (Move.ForCircuits k) i :=
  stateful_movesOnly terms key (fun _ _ => hkey) (fun _ _ _ => trivial) (fun _ => trivial) hcall

/-- The calls under way, and the failures under a key since the window last began anew, the latest
first. -/
structure Gauge where
  traffic : Traffic
  failures : List Failure

namespace Gauge

def start (l : Ledger) : Gauge := ⟨⟨l, []⟩, []⟩

def entry (key : String) (a : Gauge) : Option Context := a.traffic.ledger.get? key

/-- A failure under the key is added, unless the check after it begins a new window. -/
def failuresAfter (key : String) (a : Gauge) : Move → List Failure
  | .asks k policy _ _ asked =>
    if k = key ∧ (a.entry key).any (policy.renews · asked) then [] else a.failures
  | .fails place f now =>
    match a.traffic.flights[place]? with
    | some fl =>
      if fl.key = key then
        if (a.entry key).any fun x => fl.policy.renews (x.fail f) now then [] else f :: a.failures
      else a.failures
    | none => a.failures
  | .succeeds _ => a.failures

def step (key : String) (a : Gauge) (m : Move) : Gauge :=
  ⟨a.traffic.step m, a.failuresAfter key m⟩

/-- What comes of a list of moves. -/
def run (key : String) (a : Gauge) (ms : List Move) : Gauge := ms.foldl (step key) a

/-- The calls under way are circuits' and hold the key's sequence, whose context tells of the
failures. -/
structure Shared (key : String) (a : Gauge) : Prop where
  sound : a.traffic.Sound
  circuits : ∀ fl ∈ a.traffic.flights, fl.key = key → fl.policy.isShared = true
  held : ∀ fl ∈ a.traffic.flights, fl.key = key →
    a.traffic.ledger.live.get? key = some fl.sequence
  idle : a.traffic.ledger.current? key = none → a.failures = []
  told : ∀ n x, a.traffic.ledger.current? key = some (n, x) → x.Tells a.failures

variable {key : String} {a : Gauge} {m : Move}

theorem step_traffic (a : Gauge) (m : Move) : (a.step key m).traffic = a.traffic.step m := rfl

theorem shared_start {l : Ledger} (h : l.Sound) (hnew : l.get? key = none) :
    Shared key (start l) where
  sound := Traffic.sound_begin h
  circuits := nofun
  held := nofun
  idle _ := rfl
  told n x hc := by
    change l.current? key = _ at hc
    rw [h.get?_eq, hc] at hnew; cases hnew

theorem Shared.tells (h : Shared key a) {x : Context} (hx : a.entry key = some x) :
    x.Tells a.failures := by
  rw [entry, h.sound.ledger.get?_eq, Option.map_eq_some_iff] at hx
  obtain ⟨⟨n, x⟩, hc, rfl⟩ := hx
  exact h.told n x hc

theorem Shared.entry_eq (h : Shared key a) :
    a.entry key = (a.traffic.ledger.current? key).map (·.2) := h.sound.ledger.get?_eq key

/-! ## One move -/

/-- An admission for the key's sequence, granted or refused, leaves the sequence and the failures
that are not forgotten. -/
theorem Shared.asks (h : Shared key a) {policy : Policy} {created asked n : Nat} {x : Context}
    {comes : List Flight} (hm : m = .asks key policy false created asked)
    (hopens : a.traffic.ledger.Opens key false created n x)
    (hc : (a.traffic.step m).ledger.current? key = some (n, (policy.check x asked).context))
    (hf : (a.traffic.step m).flights = a.traffic.flights ++ comes)
    (hcomes : ∀ fl ∈ comes, fl.policy.isShared = true ∧ fl.sequence = n) :
    Shared key (a.step key m) := by
  have hlive : (a.traffic.step m).ledger.live.get? key = some n := by
    rw [(h.sound.step m).ledger.live_eq, hc]; rfl
  refine ⟨h.sound.step m, fun fl hfl hk => ?_, fun fl hfl hk => ?_, fun hnone => ?_,
    fun k y hy => ?_⟩
  · rcases List.mem_append.mp (hf ▸ hfl) with hfl | hfl
    · exact h.circuits fl hfl hk
    · exact (hcomes fl hfl).1
  · rcases List.mem_append.mp (hf ▸ hfl) with hfl | hfl
    · obtain ⟨y, hy⟩ := h.sound.ledger.entry_of_live (h.held fl hfl hk)
      obtain ⟨rfl, -⟩ := Prod.mk.inj (hopens.entry hy)
      exact hlive
    · rw [(hcomes fl hfl).2]; exact hlive
  · cases hc.symm.trans hnone
  · cases hc.symm.trans hy
    cases hopens with
    | known _ hknown =>
      have := policy.check_tells (h.told n x hknown) asked
      simpa [Gauge.step, failuresAfter, hm, h.entry_eq, hknown] using this
    | new hnone =>
      have := policy.check_tells (Context.Tells.fresh created) asked
      simpa [Gauge.step, failuresAfter, hm, h.entry_eq, hnone rfl, h.idle (hnone rfl)] using this

/-- A move that leaves the entry, and neither adds nor forgets a failure. -/
theorem Shared.same (h : Shared key a)
    (hc : (a.traffic.step m).ledger.current? key = a.traffic.ledger.current? key)
    (hf : ∀ fl ∈ (a.traffic.step m).flights, fl.key = key → fl ∈ a.traffic.flights)
    (hfailures : a.failuresAfter key m = a.failures) : Shared key (a.step key m) := by
  have hlive := h.sound.ledger.live_congr (h.sound.step m).ledger hc
  refine ⟨h.sound.step m, fun fl hfl hk => h.circuits fl (hf fl hfl hk) hk,
    fun fl hfl hk => hlive.trans (h.held fl (hf fl hfl hk) hk), fun hnone => ?_, fun n x hx => ?_⟩
  · exact hfailures.trans (h.idle (hc ▸ hnone))
  · exact (congrArg x.Tells hfailures).mpr (h.told n x (hc ▸ hx))

theorem Shared.fails (h : Shared key a) {place now : Nat} {f : Failure} {fl : Flight}
    (hfl : a.traffic.flights[place]? = some fl) (hk : fl.key = key)
    (hc : (a.traffic.step (.fails place f now)).ledger.current? key =
      (a.traffic.ledger.current? key).map fun e =>
        if e.1 = fl.sequence then (fl.sequence, (fl.policy.check (e.2.fail f) now).context) else e)
    (hf : (a.traffic.step (.fails place f now)).flights = a.traffic.flights.eraseIdx place) :
    Shared key (a.step key (.fails place f now)) := by
  -- the call holds the key's sequence, so the failure goes to the entry
  obtain ⟨x, hx⟩ := h.sound.ledger.entry_of_live (h.held fl (List.mem_of_getElem? hfl) hk)
  rw [hx, Option.map_some, if_pos rfl] at hc
  have hstays (g : Flight) (hg : g ∈ (a.traffic.step (.fails place f now)).flights) :
      g ∈ a.traffic.flights := List.mem_of_mem_eraseIdx (hf ▸ hg)
  refine ⟨h.sound.step (.fails place f now), fun g hg => h.circuits g (hstays g hg),
    fun g hg hgk => ?_, fun hnone => ?_, fun k y hy => ?_⟩
  · rw [step_traffic, Traffic.live_fails]
    exact h.held g (hstays g hg) hgk
  · cases hc.symm.trans hnone
  · cases hc.symm.trans hy
    have := fl.policy.check_tells ((h.told _ x hx).fail f) now
    simpa [Gauge.step, failuresAfter, hfl, hk, h.entry_eq, hx] using this

/-- **One move keeps the one context.** -/
theorem Shared.step (h : Shared key a) (hkeep : m.ForCircuits key) : Shared key (a.step key m) := by
  cases h.sound.effect key m with
  | admitted hopens _ hc hf =>
    obtain ⟨hshared, rfl⟩ := hkeep rfl
    refine h.asks rfl hopens hc hf fun fl hfl => ?_
    cases List.mem_singleton.mp hfl
    exact ⟨hshared, rfl⟩
  | refused hopens _ hc hf =>
    obtain ⟨hshared, rfl⟩ := hkeep rfl
    rw [if_pos hshared] at hc
    have hf := hf.trans (List.append_nil _).symm
    exact h.asks rfl hopens hc hf (List.forall_mem_nil _)
  | turnedAway hnone hb =>
    refine h.same (by rw [hb]) (fun fl hfl _ => hb ▸ hfl) ?_
    simp [failuresAfter, h.entry_eq, hnone]
  | failed hfl hk hc hf => exact h.fails hfl hk hc hf
  | succeeded hfl hk hc hf =>
    rw [h.circuits _ (List.mem_of_getElem? hfl) hk] at hc
    exact h.same hc (fun fl hfl _ => List.mem_of_mem_eraseIdx (hf ▸ hfl)) rfl
  | elsewhere hother hc hf hcomes =>
    refine h.same hc (fun fl hfl hk => ?_) ?_
    · rcases List.mem_append.mp (hf ▸ hfl) with hfl | hfl
      · exact Move.mem_clear hfl
      · exact absurd hk (hcomes fl hfl)
    · cases m with
      | asks k policy refresh created asked =>
        have hk : k ≠ key := by simpa [Traffic.concerns] using hother
        simp [failuresAfter, hk]
      | fails place f now =>
        simp only [failuresAfter]
        cases hfl : a.traffic.flights[place]? with
        | none => rfl
        | some fl =>
          have hk : fl.key ≠ key := by simpa [Traffic.concerns, hfl] using hother
          simp [hk]
      | succeeds place => rfl

/-- Once the key has a sequence it keeps it. -/
theorem Shared.stays (h : Shared key a) (hkeep : m.ForCircuits key) {n : SequenceId}
    (hn : a.traffic.ledger.live.get? key = some n) :
    (a.traffic.step m).ledger.live.get? key = some n := by
  obtain ⟨x, he⟩ := h.sound.ledger.entry_of_live hn
  cases h.sound.effect key m with
  | admitted hopens _ hc _ =>
    obtain ⟨-, rfl⟩ := hkeep rfl
    obtain ⟨rfl, -⟩ := Prod.mk.inj (hopens.entry he)
    rw [(h.sound.step _).ledger.live_eq, hc]; rfl
  | refused hopens _ hc _ =>
    obtain ⟨hshared, rfl⟩ := hkeep rfl
    obtain ⟨rfl, -⟩ := Prod.mk.inj (hopens.entry he)
    rw [(h.sound.step _).ledger.live_eq, hc, if_pos hshared]; rfl
  | turnedAway hnone _ => cases hnone.symm.trans he
  | failed => rw [Traffic.live_fails]; exact hn
  | succeeded hfl hk hc _ =>
    rw [h.circuits _ (List.mem_of_getElem? hfl) hk, if_pos rfl] at hc
    exact (h.sound.ledger.live_congr (h.sound.step _).ledger hc).trans hn
  | elsewhere _ hc _ _ => exact (h.sound.ledger.live_congr (h.sound.step m).ledger hc).trans hn

/-! ## A run -/

theorem Shared.run (h : Shared key a) {ms : List Move} (hkeep : ∀ m ∈ ms, m.ForCircuits key) :
    Shared key (a.run key ms) ∧ ∀ n, a.traffic.ledger.live.get? key = some n →
      (a.run key ms).traffic.ledger.live.get? key = some n := by
  induction ms generalizing a with
  | nil => exact ⟨h, fun _ hn => hn⟩
  | cons m ms ih =>
    obtain ⟨hafter, hstays⟩ := ih (h.step (hkeep m (.head _))) fun m' hm' => hkeep m' (.tail _ hm')
    exact ⟨hafter, fun n hn => hstays n (h.stays (hkeep m (.head _)) hn)⟩

/-- Where there is no entry yet, a circuit that asks is turned away for want of room or stores one.
-/
theorem Shared.stores (h : Shared key a) (c : Circuit) (created asked : Nat) :
    (∃ capacity, (a.traffic.ledger.ask (.circuit c) key false created asked).1 = .full capacity ∧
      a.traffic.ledger.live.isFull = true ∧ a.entry key = none) ∨
    ∃ n, (a.step key (.asks key (.circuit c) false created asked)).traffic.ledger.live.get? key =
      some n := by
  have hsound := (h.sound.step (.asks key (.circuit c) false created asked)).ledger
  rcases h.sound.ledger.ask (.circuit c) key false created asked with
    ⟨hnone, hfull, ha⟩ | ⟨n, x, l, -, -, -, -, ⟨-, ha, hc⟩ | ⟨-, ha, hc⟩⟩
  · exact .inl ⟨_, by rw [ha], hfull, by rw [h.entry_eq, hnone]; rfl⟩
  · refine .inr ⟨n, hsound.live_eq key |>.trans ?_⟩
    rw [Traffic.step_admitted ha, hc]; rfl
  · refine .inr ⟨n, hsound.live_eq key |>.trans ?_⟩
    rw [Traffic.step_refused ha, hc]; rfl

theorem Shared.never_full (h : Shared key a) {n : SequenceId}
    (hn : a.traffic.ledger.live.get? key = some n) (c : Circuit) (created asked capacity : Nat) :
    (a.traffic.ledger.ask (.circuit c) key false created asked).1 ≠ .full capacity := by
  obtain ⟨x, hx⟩ := h.sound.ledger.entry_of_live hn
  rcases h.sound.ledger.ask (.circuit c) key false created asked with
    ⟨hnone, -, -⟩ | ⟨_, _, _, -, -, -, -, ⟨-, ha, -⟩ | ⟨-, ha, -⟩⟩
  · cases hx.symm.trans hnone
  · rw [ha]; nofun
  · rw [ha]; nofun

/-- **A circuit has one context, and it counts every failure once.** The moves begin with a sound
ledger that has no entry for the key; under the key only circuits ask, also different ones, and
none sets attempts aside. At any time the entry tells of all failures since the last check that
began a new window. An admission stores an entry unless there is no room for it. And once the key
has a sequence it has the same one after any further moves; the calls under way hold it, and nobody
who asks for it is turned away. -/
theorem one_context {l : Ledger} (hl : l.Sound) (hnew : l.get? key = none)
    {earlier later : List Move} (hearlier : ∀ m ∈ earlier, m.ForCircuits key)
    (hlater : ∀ m ∈ later, m.ForCircuits key) :
    let a := run key (start l) earlier
    let b := run key a later
    (∀ x, a.entry key = some x →
      x.attempts = a.failures.length ∧ x.last = a.failures.head?) ∧
    (∀ (c : Circuit) (created asked : Nat),
      (∃ capacity, (a.traffic.ledger.ask (.circuit c) key false created asked).1 =
        .full capacity ∧ a.traffic.ledger.live.isFull = true ∧ a.entry key = none) ∨
      ∃ n, (a.step key (.asks key (.circuit c) false created asked)).traffic.ledger.live.get? key =
        some n) ∧
    ∀ n, a.traffic.ledger.live.get? key = some n →
      b.traffic.ledger.live.get? key = some n ∧
      (∀ fl ∈ b.traffic.flights, fl.key = key → fl.sequence = n) ∧
      ∀ (c : Circuit) (created asked capacity : Nat),
        (b.traffic.ledger.ask (.circuit c) key false created asked).1 ≠ .full capacity := by
  intro a b
  have ha : Shared key a := ((shared_start hl hnew).run hearlier).1
  obtain ⟨hb, hstays⟩ : Shared key b ∧ _ := ha.run hlater
  refine ⟨fun x hx => ha.tells hx, ha.stores, fun n hn => ⟨hstays n hn, fun fl hfl hk => ?_,
    hb.never_full (hstays n hn)⟩⟩
  exact Option.some.inj ((hb.held fl hfl hk).symm.trans (hstays n hn))

/-! ## Two circuits that share a key -/

def shop (n : Nat) : Policy :=
  .circuit ⟨.retrying n, Duration.ofMillis 5000, Duration.ofMillis 20000, "k"⟩

def lost : Failure := ⟨⟨.root "Down" "Down", "lost"⟩, []⟩

/-- Both have a call under way when one of them fails. -/
def opening : List Move :=
  [.asks "k" (shop 2) false 0 0, .asks "k" (shop 0) false 0 0, .fails 0 lost 10]

/-- The other one fails too and opens the circuit; another key finds no room; long after that the
circuit closes. -/
def closing : List Move :=
  [.fails 0 lost 20, .asks "j" (.attempts (.retrying 2)) false 30 30,
    .asks "k" (shop 0) false 20021 20021]

theorem one_context_shop :
    let a := run "k" (start (.empty 1)) opening
    let b := run "k" a closing
    (∀ x, a.entry "k" = some x →
      x.attempts = a.failures.length ∧ x.last = a.failures.head?) ∧
    (∀ (c : Circuit) (created asked : Nat),
      (∃ capacity, (a.traffic.ledger.ask (.circuit c) "k" false created asked).1 =
        .full capacity ∧ a.traffic.ledger.live.isFull = true ∧ a.entry "k" = none) ∨
      ∃ n, (a.step "k" (.asks "k" (.circuit c) false created asked)).traffic.ledger.live.get? "k" =
        some n) ∧
    ∀ n, a.traffic.ledger.live.get? "k" = some n →
      b.traffic.ledger.live.get? "k" = some n ∧
      (∀ fl ∈ b.traffic.flights, fl.key = "k" → fl.sequence = n) ∧
      ∀ (c : Circuit) (created asked capacity : Nat),
        (b.traffic.ledger.ask (.circuit c) "k" false created asked).1 ≠ .full capacity := by
  have hopening : ∀ m ∈ opening, m.ForCircuits "k" := by
    intro m hm
    simp only [opening, List.mem_cons, List.not_mem_nil, or_false] at hm
    rcases hm with rfl | rfl | rfl
    · exact fun _ => ⟨rfl, rfl⟩
    · exact fun _ => ⟨rfl, rfl⟩
    · trivial
  have hclosing : ∀ m ∈ closing, m.ForCircuits "k" := by
    intro m hm
    simp only [closing, List.mem_cons, List.not_mem_nil, or_false] at hm
    rcases hm with rfl | rfl | rfl
    · trivial
    · exact fun hk => absurd hk (by decide)
    · exact fun _ => ⟨rfl, rfl⟩
  exact one_context (Ledger.sound_empty 1) rfl hopening hclosing

/-- The failures of both are counted, and forgotten when the circuit closes. -/
example :
    (run "k" (run "k" (start (.empty 1)) opening) (closing.take 2)).failures = [lost, lost] ∧
      (run "k" (run "k" (start (.empty 1)) opening) closing).failures = [] := by decide

end Gauge

end CallGuard
