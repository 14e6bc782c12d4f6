import Mathlib.Data.List.Infix
import CallGuard.Proofs.Ledger.Traffic
/-! # What an attempt limit bounds when calls overlap

The limit of a key is asked at the admission and a failure is counted at the completion. Therefore
calls that overlap are admitted on the same count, and each of them beyond the first may add one to
what the limit allows. `attempts_le` says that this is all: with at most `w` other calls of the key
under way beside each, its entry counts at most `w` attempts more than the limit. `attempts_met`
says that so many there can be. Where no two calls of a key overlap the limit holds. -/

namespace CallGuard

/-- The calls under way, and how many attempts under a key have failed since its entry was dropped
the last time. -/
structure Tracked where
  traffic : Traffic
  failures : Nat

namespace Tracked

def step (key : String) (a : Tracked) (m : Move) : Tracked :=
  let next := a.traffic.step m
  ⟨next,
    if (a.traffic.ledger.get? key).isSome && (next.ledger.get? key).isNone then 0
    else if a.traffic.failsUnder key m then a.failures + 1 else a.failures⟩

/-- With at most `w` other calls of the key under way beside each of them. -/
structure Bounded (limit : AttemptLimit) (key : String) (w : Nat) (a : Tracked) : Prop where
  sound : a.traffic.Sound
  limited : ∀ fl ∈ a.traffic.flights, fl.key = key → fl.policy = .attempts limit
  idle : a.traffic.ledger.current? key = none → a.failures + a.traffic.inFlight key ≤ w
  counted : ∀ n x, a.traffic.ledger.current? key = some (n, x) →
    x.attempts + a.traffic.inFlightFor n ≤ limit.limit + w ∧
    a.failures + a.traffic.inFlight key ≤ x.attempts + a.traffic.inFlightFor n + w ∧
    (limit.allows x = false → a.traffic.inFlight key ≤ w)

variable {limit : AttemptLimit} {key : String} {w : Nat} {a : Tracked}

theorem bounded_begin {l : Ledger} (h : l.Sound) (hnew : l.get? key = none) :
    Bounded limit key w ⟨⟨l, []⟩, 0⟩ where
  sound := Traffic.sound_begin h
  limited := nofun
  idle _ := Nat.zero_le _
  counted n x hc := by
    rw [h.get?_eq, hc] at hnew; cases hnew

theorem step_traffic (a : Tracked) (m : Move) : (a.step key m).traffic = a.traffic.step m := rfl

/-- The count goes on while the entry stays, or stays away. -/
theorem step_failures {m : Move} (h : a.traffic.Sound)
    (hc : (a.traffic.ledger.current? key).isSome →
      ((a.traffic.step m).ledger.current? key).isSome) :
    (a.step key m).failures =
      if a.traffic.failsUnder key m then a.failures + 1 else a.failures := by
  unfold step
  dsimp only
  rw [h.ledger.get?_eq, (h.step m).ledger.get?_eq, Option.isSome_map, Option.isNone_map]
  refine if_neg fun hdrop => ?_
  rw [Bool.and_eq_true] at hdrop
  rw [Option.isNone_iff_eq_none] at hdrop
  have := hc hdrop.1
  rw [hdrop.2] at this; cases this

theorem step_dropped {m : Move} (h : a.traffic.Sound)
    (hc : (a.traffic.ledger.current? key).isSome)
    (hd : (a.traffic.step m).ledger.current? key = none) : (a.step key m).failures = 0 := by
  unfold step
  dsimp only
  rw [h.ledger.get?_eq, (h.step m).ledger.get?_eq, Option.isSome_map, Option.isNone_map, hc, hd]
  rfl

/-- A move under another key does not show. -/
theorem Bounded.quiet (h : Bounded limit key w a) {m : Move}
    (hc : (a.traffic.step m).ledger.current? key = a.traffic.ledger.current? key)
    (hflights : ∀ fl ∈ (a.traffic.step m).flights, fl.key = key → fl ∈ a.traffic.flights)
    (hquiet : a.traffic.failsUnder key m = false)
    (hf : (a.traffic.step m).inFlight key = a.traffic.inFlight key)
    (hn : ∀ n, a.traffic.ledger.live.get? key = some n →
      (a.traffic.step m).inFlightFor n = a.traffic.inFlightFor n) :
    Bounded limit key w (a.step key m) := by
  have hfail : (a.step key m).failures = a.failures := by
    rw [step_failures h.sound (by rw [hc]; exact id), hquiet]; rfl
  refine ⟨h.sound.step m, fun fl hfl hk => h.limited fl (hflights fl hfl hk) hk, fun hnone => ?_,
    fun n x hnx => ?_⟩
  · rw [hfail, step_traffic, hf]
    exact h.idle (hc ▸ hnone)
  · rw [step_traffic, hc] at hnx
    rw [hfail, step_traffic, hf, hn n (Ledger.current?_eq_some.mp hnx).1]
    exact h.counted n x hnx

theorem Bounded.still (h : Bounded limit key w a) {m : Move} (hm : a.traffic.step m = a.traffic)
    (hquiet : a.traffic.failsUnder key m = false) : Bounded limit key w (a.step key m) := by
  refine h.quiet ?_ (fun fl hfl _ => ?_) hquiet ?_ fun n _ => ?_
  · rw [hm]
  · rw [hm] at hfl; exact hfl
  · rw [hm]
  · rw [hm]

/-- A completion under another key does not show. -/
theorem Bounded.settle_other (h : Bounded limit key w a) {m : Move} {place : Nat} {fl : Flight}
    {l : Ledger} (hfl : a.traffic.flights[place]? = some fl) (hk : fl.key ≠ key)
    (hm : a.traffic.step m = ⟨l, a.traffic.flights.eraseIdx place⟩)
    (hc : l.current? key = a.traffic.ledger.current? key)
    (hquiet : a.traffic.failsUnder key m = false) : Bounded limit key w (a.step key m) := by
  refine h.quiet ?_ (fun f hf _ => ?_) hquiet ?_ fun n hn => ?_
  · rw [hm]; exact hc
  · rw [hm] at hf; exact List.mem_of_mem_eraseIdx hf
  · unfold Traffic.inFlight
    rw [hm, Traffic.countP_settled hfl, beq_false_of_ne hk]; rfl
  · have hne : fl.sequence ≠ n := by
      rintro rfl
      exact hk (h.sound.under fl (List.mem_of_getElem? hfl) key hn).symm
    unfold Traffic.inFlightFor
    rw [hm, Traffic.countP_settled hfl, beq_false_of_ne hne]; rfl

/-- The calls under way when one of the key is over. -/
theorem Bounded.settled (h : Bounded limit key w a) {m : Move} {place : Nat} {fl : Flight}
    {l : Ledger} (hfl : a.traffic.flights[place]? = some fl) (hk : fl.key = key)
    (hm : a.traffic.step m = ⟨l, a.traffic.flights.eraseIdx place⟩) :
    (∀ fl ∈ (a.traffic.step m).flights, fl.key = key → fl.policy = .attempts limit) ∧
      a.traffic.inFlight key = (a.traffic.step m).inFlight key + 1 ∧
      ∀ n, a.traffic.inFlightFor n =
        (a.traffic.step m).inFlightFor n + if fl.sequence = n then 1 else 0 := by
  refine ⟨fun f hf => h.limited f ?_, ?_, fun n => ?_⟩
  · rw [hm] at hf; exact List.mem_of_mem_eraseIdx hf
  · unfold Traffic.inFlight
    rw [hm, Traffic.countP_settled hfl, hk, beq_self_eq_true]; rfl
  · unfold Traffic.inFlightFor
    rw [hm, Traffic.countP_settled hfl]
    simp only [beq_iff_eq]

/-- An admission under another key does not show. -/
theorem Bounded.ask_other (h : Bounded limit key w a) {k : String} (hk : k ≠ key) (policy : Policy)
    (refresh : Bool) (created asked : Nat) :
    Bounded limit key w (a.step key (.asks k policy refresh created asked)) := by
  rcases h.sound.ledger.ask policy k refresh created asked with
    ⟨-, -, ha⟩ | ⟨n, x, l, -, hl, helse, -, ⟨-, ha, hc⟩ | ⟨-, ha, -⟩⟩
  · exact h.still (Traffic.step_full ha) rfl
  · have hstep := Traffic.step_admitted ha
    refine h.quiet ?_ (fun fl hfl hfk => ?_) rfl ?_ fun m hm => ?_
    · rw [hstep]; exact helse key (Ne.symm hk)
    · rw [hstep] at hfl
      rcases List.mem_append.mp hfl with hfl | hfl
      · exact hfl
      · cases List.mem_singleton.mp hfl; exact absurd hfk hk
    · unfold Traffic.inFlight
      rw [hstep, Traffic.countP_admitted, beq_false_of_ne hk]; rfl
    · have hne : n ≠ m := by
        rintro rfl
        have hlive := (h.sound.ledger.live_congr hl (helse key (Ne.symm hk))).trans hm
        exact hk (hl.apart (Ledger.current?_eq_some.mp hc).1 hlive)
      unfold Traffic.inFlightFor
      rw [hstep, Traffic.countP_admitted, beq_false_of_ne hne]; rfl
  · have hstep := Traffic.step_refused ha
    refine h.quiet ?_ (fun fl hfl _ => ?_) rfl ?_ fun m _ => ?_
    · rw [hstep]; exact helse key (Ne.symm hk)
    · rw [hstep] at hfl; exact hfl
    · rw [hstep]; rfl
    · rw [hstep]; rfl

theorem Bounded.asks (h : Bounded limit key w a) {m : Move} {created asked : Nat}
    (hm : m = .asks key (.attempts limit) false created asked)
    (hover : (a.traffic.step m).inFlight key ≤ w + 1) : Bounded limit key w (a.step key m) := by
  have hsound := h.sound.step m
  have hquiet : a.traffic.failsUnder key m = false := by rw [hm]; rfl
  rcases h.sound.ledger.ask (.attempts limit) key false created asked with
    ⟨-, -, ha⟩ | ⟨n, x, l, hopens, hl, -, -, ⟨hyes, ha, hc⟩ | ⟨hno, ha, hc⟩⟩
  · exact h.still (by rw [hm]; exact Traffic.step_full ha) hquiet
  · change l.current? key = some (n, x) at hc
    have hallows : limit.allows x = true := hyes
    have hleft : x.attempts < limit.limit := (AttemptLimit.allows_iff.mp hallows).2
    have hstep : a.traffic.step m =
        ⟨l, a.traffic.flights ++ [⟨key, .attempts limit, n⟩]⟩ := by
      rw [hm]; exact Traffic.step_admitted ha
    have hf : (a.traffic.step m).inFlight key = a.traffic.inFlight key + 1 := by
      unfold Traffic.inFlight
      rw [hstep, Traffic.countP_admitted, beq_self_eq_true]; rfl
    have hn : (a.traffic.step m).inFlightFor n = a.traffic.inFlightFor n + 1 := by
      unfold Traffic.inFlightFor
      rw [hstep, Traffic.countP_admitted, beq_self_eq_true]; rfl
    have hle : (a.traffic.step m).inFlightFor n ≤ (a.traffic.step m).inFlight key := by
      refine hsound.inFlightFor_le ?_
      rw [hstep]; exact (Ledger.current?_eq_some.mp hc).1
    have hcount : (a.step key m).failures = a.failures := by
      rw [step_failures h.sound fun _ => by rw [hstep, hc]; rfl, hquiet]; rfl
    have hbefore : a.failures + a.traffic.inFlight key ≤
        x.attempts + a.traffic.inFlightFor n + w := by
      cases hopens with
      | known _ hknown => exact (h.counted n x hknown).2.1
      | new hnone => have := h.idle (hnone rfl); omega
    refine ⟨hsound, fun fl hfl hk => ?_, fun hnone => ?_, fun k y hy => ?_⟩
    · rw [step_traffic, hstep] at hfl
      rcases List.mem_append.mp hfl with hfl | hfl
      · exact h.limited fl hfl hk
      · cases List.mem_singleton.mp hfl; rfl
    · rw [step_traffic, hstep, hc] at hnone; cases hnone
    · rw [step_traffic, hstep, hc] at hy
      cases hy
      rw [hcount, step_traffic]
      refine ⟨by omega, by omega, fun hno => ?_⟩
      rw [hallows] at hno; cases hno
  · have hallows : limit.allows x = false := hno
    have hstep : a.traffic.step m = ⟨l, a.traffic.flights⟩ := by
      rw [hm]; exact Traffic.step_refused ha
    cases hopens with
    | new =>
      rw [limit.allows_unfailed rfl rfl] at hallows; cases hallows
    | known _ hknown =>
      -- the refusal drops the entry, and leaves no more calls under way than the last one did
      have hgone : (a.traffic.step m).ledger.current? key = none := by rw [hstep]; exact hc
      have hcount : (a.step key m).failures = 0 :=
        step_dropped h.sound (by rw [hknown]; rfl) hgone
      have hfew := (h.counted n x hknown).2.2 hallows
      refine ⟨hsound, fun fl hfl hk => ?_, fun _ => ?_, fun k y hy => ?_⟩
      · rw [step_traffic, hstep] at hfl; exact h.limited fl hfl hk
      · rw [hcount, step_traffic, hstep, Nat.zero_add]; exact hfew
      · rw [step_traffic, hgone] at hy; cases hy

theorem Bounded.fails (h : Bounded limit key w a) {place : Nat} {f : Failure} {now : Nat}
    (hover : a.traffic.inFlight key ≤ w + 1) :
    Bounded limit key w (a.step key (.fails place f now)) := by
  cases hfl : a.traffic.flights[place]? with
  | none =>
    exact h.still (Traffic.step_nobody hfl f now).1 (by simp [Traffic.failsUnder, hfl])
  | some fl =>
    have hstep := Traffic.step_fails hfl f now
    by_cases hk : fl.key = key
    · obtain ⟨hlimited, hf, hn⟩ := h.settled hfl hk hstep
      have hafter : (a.traffic.step (.fails place f now)).ledger.current? key =
          (a.traffic.ledger.current? key).map fun e =>
            if e.1 = fl.sequence then (fl.sequence, e.2.fail f) else e := by
        rw [hstep, h.limited fl (List.mem_of_getElem? hfl) hk]
        exact h.sound.ledger.current?_fail (.attempts limit) fl.sequence f now key
      have hcount : (a.step key (.fails place f now)).failures = a.failures + 1 := by
        rw [step_failures h.sound (by rw [hafter, Option.isSome_map]; exact id)]
        exact if_pos (by simp [Traffic.failsUnder, hfl, hk])
      refine ⟨h.sound.step (.fails place f now), hlimited, fun hnone => ?_, fun n y hy => ?_⟩
      · rw [step_traffic, hafter, Option.map_eq_none_iff] at hnone
        have := h.idle hnone
        rw [hcount, step_traffic]; omega
      · rw [step_traffic, hafter, Option.map_eq_some_iff] at hy
        obtain ⟨⟨m, x⟩, hx, hy⟩ := hy
        obtain ⟨hattempts, hfailures, -⟩ := h.counted m x hx
        have hm := hn m
        rw [hcount, step_traffic]
        -- the entry counts the failure if it is of its sequence
        by_cases hseq : m = fl.sequence
        · rw [if_pos hseq] at hy
          cases hy
          have hone : ((m, x).2.fail f).attempts = x.attempts + 1 := rfl
          rw [if_pos hseq.symm, hseq] at hm
          rw [hseq] at hattempts hfailures
          refine ⟨?_, ?_, fun _ => ?_⟩ <;> omega
        · rw [if_neg hseq] at hy
          cases hy
          rw [if_neg (Ne.symm hseq)] at hm
          refine ⟨?_, ?_, fun _ => ?_⟩ <;> omega
    · have hquiet : a.traffic.failsUnder key (.fails place f now) = false := by
        simp [Traffic.failsUnder, hfl, hk]
      refine h.settle_other hfl hk hstep (Ledger.fail_elsewhere (fun hlive => hk ?_) _ _ _) hquiet
      exact (h.sound.under fl (List.mem_of_getElem? hfl) key hlive).symm

theorem Bounded.succeeds (h : Bounded limit key w a) {place : Nat}
    (hover : a.traffic.inFlight key ≤ w + 1) :
    Bounded limit key w (a.step key (.succeeds place)) := by
  cases hfl : a.traffic.flights[place]? with
  | none => exact h.still (Traffic.step_nobody hfl default 0).2 rfl
  | some fl =>
    have hstep := Traffic.step_succeeds hfl
    by_cases hk : fl.key = key
    · obtain ⟨hlimited, hf, -⟩ := h.settled hfl hk hstep
      have hgone : (a.traffic.step (.succeeds place)).ledger.current? key = none := by
        rw [hstep, h.limited fl (List.mem_of_getElem? hfl) hk, hk]
        exact Ledger.current?_release_self _ _ _
      refine ⟨h.sound.step (.succeeds place), hlimited, fun _ => ?_, fun n x hx => ?_⟩
      · rw [step_traffic]
        cases hc : a.traffic.ledger.current? key with
        | none =>
          have hidle := h.idle hc
          have hcount : (a.step key (.succeeds place)).failures = a.failures :=
            step_failures h.sound (by rw [hc]; nofun)
          omega
        | some e =>
          have hcount : (a.step key (.succeeds place)).failures = 0 :=
            step_dropped h.sound (by rw [hc]; rfl) hgone
          omega
      · rw [step_traffic, hgone] at hx; cases hx
    · exact h.settle_other hfl hk hstep (Ledger.release_elsewhere _ _ _ key (Ne.symm hk)) rfl

/-- **One move keeps the bounds.** -/
theorem Bounded.step (h : Bounded limit key w a) {m : Move}
    (hkeep : m.KeepsTo key (.attempts limit)) (hover : a.traffic.inFlight key ≤ w + 1)
    (hover' : (a.traffic.step m).inFlight key ≤ w + 1) : Bounded limit key w (a.step key m) := by
  cases m with
  | asks k policy refresh created asked =>
    by_cases hk : k = key
    · obtain ⟨rfl, rfl⟩ := hkeep hk
      exact h.asks (by rw [hk]) hover'
    · exact h.ask_other hk policy refresh created asked
  | fails place f now => exact h.fails hover
  | succeeds place => exact h.succeeds hover

/-- What comes of a list of moves. -/
def run (key : String) (a : Tracked) (ms : List Move) : Tracked := ms.foldl (step key) a

/-- Beside each call of the key, at most `w` others are under way at any time of the run. -/
def Overlaps (key : String) (w : Nat) (a : Tracked) (ms : List Move) : Prop :=
  ∀ earlier, earlier <+: ms → (a.run key earlier).traffic.inFlight key ≤ w + 1

theorem Bounded.run (h : Bounded limit key w a) {ms : List Move}
    (hkeep : ∀ m ∈ ms, m.KeepsTo key (.attempts limit)) (hover : a.Overlaps key w ms) :
    Bounded limit key w (a.run key ms) := by
  induction ms generalizing a with
  | nil => exact h
  | cons m ms ih =>
    have hfirst := h.step (hkeep m (.head _)) (hover [] (List.nil_prefix ..))
      (hover [m] (List.cons_prefix_cons.mpr ⟨rfl, List.nil_prefix ..⟩))
    exact ih hfirst (fun m' hm' => hkeep m' (.tail _ hm'))
      fun earlier he => hover (m :: earlier) (List.cons_prefix_cons.mpr ⟨rfl, he⟩)

/-- **What the limit still bounds when calls overlap.** The moves begin with a sound ledger that has
no entry for the key, and without calls under way. As long as beside each call of the key at most
`w` others are under way, its entry counts at most `w` attempts more than the limit, and at most
`2 * w` attempts more than the limit have failed since the entry was dropped the last time. -/
theorem attempts_le {l : Ledger} (hl : l.Sound) (hnew : l.get? key = none) {ms : List Move}
    (hkeep : ∀ m ∈ ms, m.KeepsTo key (.attempts limit))
    (hover : Overlaps key w ⟨⟨l, []⟩, 0⟩ ms) :
    (∀ x, ((run key ⟨⟨l, []⟩, 0⟩ ms).traffic.ledger.get? key) = some x →
      x.attempts ≤ limit.limit + w) ∧
    (run key ⟨⟨l, []⟩, 0⟩ ms).failures ≤ limit.limit + 2 * w := by
  have h : Bounded limit key w (run key ⟨⟨l, []⟩, 0⟩ ms) := (bounded_begin hl hnew).run hkeep hover
  generalize run key ⟨⟨l, []⟩, 0⟩ ms = a at h
  refine ⟨fun x hx => ?_, ?_⟩
  · rw [h.sound.ledger.get?_eq, Option.map_eq_some_iff] at hx
    obtain ⟨⟨n, x⟩, hc, rfl⟩ := hx
    have := (h.counted n x hc).1
    dsimp only
    omega
  · cases hc : a.traffic.ledger.current? key with
    | none => have := h.idle hc; omega
    | some e =>
      obtain ⟨hattempts, hfailures, -⟩ := h.counted e.1 e.2 hc
      have := h.sound.inFlightFor_le (Ledger.current?_eq_some.mp hc).1
      omega

/-! ## Two calls where one attempt is allowed -/

/-- Used up by one failure. -/
def single : AttemptLimit := ⟨1, .retryAll, by decide⟩

def down : Failure := ⟨⟨.root "Down" "Down", "down"⟩, []⟩

def ask : Move := .asks "k" (.attempts single) false 0 0

/-- Both calls are admitted before the first of them fails. -/
def side : List Move := [ask, ask, .fails 0 down 0, .fails 0 down 0]

def start : Tracked := ⟨⟨Ledger.empty 1, []⟩, 0⟩

theorem attempts_le_side :
    (∀ x, (run "k" start side).traffic.ledger.get? "k" = some x → x.attempts ≤ single.limit + 1) ∧
      (run "k" start side).failures ≤ single.limit + 2 * 1 := by
  have hkeep : ∀ m ∈ side, m.KeepsTo "k" (.attempts single) := by
    intro m hm
    simp only [side, List.mem_cons, List.not_mem_nil, or_false] at hm
    rcases hm with rfl | rfl | rfl | rfl
    · exact fun _ => ⟨rfl, rfl⟩
    · exact fun _ => ⟨rfl, rfl⟩
    · trivial
    · trivial
  have hover : ∀ earlier ∈ side.inits, (start.run "k" earlier).traffic.inFlight "k" ≤ 1 + 1 := by
    decide
  exact attempts_le (Ledger.sound_empty 1) rfl hkeep fun earlier he =>
    hover earlier ((List.mem_inits earlier side).mpr he)

theorem side_by_side :
    (∃ x, (run "k" start side).traffic.ledger.get? "k" = some x ∧ single.limit < x.attempts) ∧
      single.limit < (run "k" start side).failures := by
  have hkept : (run "k" start side).traffic.ledger.get? "k" =
      some { attempts := 2, last := some down, started := 0, isOpen := false } := by decide
  exact ⟨⟨_, hkept, by decide⟩, by decide⟩

/-- Another call was under way when the entry was dropped. -/
example : (run "k" start ([ask, ask, .succeeds 0, .fails 0 down 0] ++ side)).failures = 3 := by
  decide

/-! ## How far overlapping calls can go -/

/-- A run with so much overlap leads from one to the other. -/
def Leads (limit : AttemptLimit) (key : String) (w : Nat) (a b : Tracked) : Prop :=
  ∃ ms, (∀ m ∈ ms, m.KeepsTo key (.attempts limit)) ∧ a.Overlaps key w ms ∧ a.run key ms = b

theorem leads_refl (h : a.traffic.inFlight key ≤ w + 1) : Leads limit key w a a :=
  ⟨[], nofun, fun earlier he => by rw [List.prefix_nil.mp he]; exact h, rfl⟩

theorem Leads.cons {b : Tracked} {m : Move} (hm : m.KeepsTo key (.attempts limit))
    (ha : a.traffic.inFlight key ≤ w + 1) (h : Leads limit key w (a.step key m) b) :
    Leads limit key w a b := by
  obtain ⟨ms, hkeep, hover, hb⟩ := h
  refine ⟨m :: ms, List.forall_mem_cons.mpr ⟨hm, hkeep⟩, fun earlier he => ?_, hb⟩
  cases earlier with
  | nil => exact ha
  | cons m' earlier =>
    obtain ⟨rfl, he'⟩ := List.cons_prefix_cons.mp he
    exact hover earlier he'

theorem Leads.asks {b : Tracked} (ha : a.traffic.inFlight key ≤ w + 1)
    (h : Leads limit key w (a.step key (.asks key (.attempts limit) false 0 0)) b) :
    Leads limit key w a b :=
  have hkeep : (Move.asks key (.attempts limit) false 0 0).KeepsTo key (.attempts limit) :=
    fun _ => ⟨rfl, rfl⟩
  h.cons hkeep ha

theorem Leads.fails {b : Tracked} {f : Failure} (ha : a.traffic.inFlight key ≤ w + 1)
    (h : Leads limit key w (a.step key (.fails 0 f 0)) b) : Leads limit key w a b :=
  have hkeep : (Move.fails 0 f 0).KeepsTo key (.attempts limit) := trivial
  h.cons hkeep ha

/-- Calls of the same sequence are under way, and the sequence is the key's. -/
structure Stands (limit : AttemptLimit) (key : String) (n : SequenceId) (x : Context) (k : Nat)
    (a : Tracked) : Prop where
  sound : a.traffic.Sound
  current : a.traffic.ledger.current? key = some (n, x)
  flights : a.traffic.flights = List.replicate k ⟨key, .attempts limit, n⟩

variable {n : SequenceId} {x : Context} {k : Nat} {f : Failure}

theorem Stands.inFlight (h : Stands limit key n x k a) : a.traffic.inFlight key = k := by
  unfold Traffic.inFlight
  rw [h.flights, List.countP_replicate, beq_self_eq_true, if_pos rfl]

/-- An admission, by a key without an entry. -/
theorem stands_first (limit : AttemptLimit) (key : String) {capacity : Nat} (h : 0 < capacity) :
    Stands limit key 0 (Context.fresh 0) 1
      (step key ⟨⟨Ledger.empty capacity, []⟩, 0⟩ (.asks key (.attempts limit) false 0 0)) := by
  have hempty := Traffic.sound_begin (Ledger.sound_empty capacity)
  have hsound := hempty.step (.asks key (.attempts limit) false 0 0)
  rcases hempty.ledger.ask (.attempts limit) key false 0 0 with
    ⟨-, hfull, -⟩ | ⟨n, x, l, hopens, -, -, -, hcase⟩
  · simp [Ledger.empty, BoundedMap.empty, BoundedMap.isFull, BoundedMap.size, Dict.empty,
      Dict.size] at hfull
    omega
  · cases hopens with
    | known _ hknown => cases hknown
    | new =>
      rcases hcase with ⟨-, ha, hc⟩ | ⟨hno, -⟩
      · have hstep := Traffic.step_admitted ha
        refine ⟨hsound, ?_, ?_⟩
        · rw [step_traffic, hstep]; exact hc
        · rw [step_traffic, hstep]; rfl
      · have hyes : limit.allows (Context.fresh 0) = true := limit.allows_unfailed rfl rfl
        rw [show limit.allows (Context.fresh 0) = false from hno] at hyes
        cases hyes

/-- An admission by an entry that allows it. -/
theorem Stands.joins (h : Stands limit key n x k a) (hx : limit.allows x = true) :
    Stands limit key n x (k + 1) (a.step key (.asks key (.attempts limit) false 0 0)) := by
  have hsound := h.sound.step (.asks key (.attempts limit) false 0 0)
  rcases h.sound.ledger.ask (.attempts limit) key false 0 0 with
    ⟨hnone, -⟩ | ⟨m, y, l, hopens, -, -, -, hcase⟩
  · rw [h.current] at hnone; cases hnone
  · cases hopens with
    | new hnone => have := hnone rfl; rw [h.current] at this; cases this
    | known _ hknown =>
      cases h.current.symm.trans hknown
      rcases hcase with ⟨-, ha, hc⟩ | ⟨hno, -⟩
      · have hstep := Traffic.step_admitted ha
        refine ⟨hsound, ?_, ?_⟩
        · rw [step_traffic, hstep]; exact hc
        · rw [step_traffic, hstep, h.flights, List.replicate_succ']
      · rw [show limit.allows x = false from hno] at hx; cases hx

/-- A failure of one of the calls under way. -/
theorem Stands.counts (h : Stands limit key n x (k + 1) a) (f : Failure) :
    Stands limit key n (x.fail f) k (a.step key (.fails 0 f 0)) := by
  have hfl : a.traffic.flights[0]? = some ⟨key, .attempts limit, n⟩ := by
    rw [h.flights, List.replicate_succ]; rfl
  have hstep := Traffic.step_fails hfl f 0
  refine ⟨h.sound.step (.fails 0 f 0), ?_, ?_⟩
  · rw [step_traffic, hstep]
    refine (h.sound.ledger.current?_fail (.attempts limit) n f 0 key).trans ?_
    rw [h.current, Option.map_some, if_pos rfl]; rfl
  · rw [step_traffic, hstep, h.flights, List.replicate_succ]; rfl

/-- One call after the other fails, and the next one is admitted. -/
theorem Stands.advance (h : Stands limit key n x 1 a) (hf : limit.retries f = true) {j : Nat}
    (hx : limit.allows x = true) (hj : x.attempts + j < limit.limit) :
    ∃ b y, Leads limit key w a b ∧ Stands limit key n y 1 b ∧ y.attempts = x.attempts + j ∧
      limit.allows y = true := by
  induction j generalizing a x with
  | zero => exact ⟨a, x, leads_refl (by rw [h.inFlight]; omega), h, rfl, hx⟩
  | succ j ih =>
    have hfail := h.counts f
    have hallows : limit.allows (x.fail f) = true := by
      rw [limit.allows_failed rfl, hf, Bool.true_and, decide_eq_true_iff]
      change x.attempts + 1 < limit.limit
      omega
    have hjoin := hfail.joins hallows
    obtain ⟨b, y, hb, hy, hn, hyes⟩ := ih hjoin hallows
      (by change x.attempts + 1 + j < limit.limit; omega)
    refine ⟨b, y, .fails ?_ (.asks ?_ hb), hy, ?_, hyes⟩
    · rw [h.inFlight]; omega
    · rw [hfail.inFlight]; omega
    · rw [hn]
      change x.attempts + 1 + j = _
      omega

/-- So many further calls are admitted on the same count. -/
theorem Stands.crowd (h : Stands limit key n x k a) (hx : limit.allows x = true) {j : Nat}
    (hj : k + j ≤ w + 1) : ∃ b, Leads limit key w a b ∧ Stands limit key n x (k + j) b := by
  induction j generalizing a k with
  | zero => exact ⟨a, leads_refl (by rw [h.inFlight]; omega), h⟩
  | succ j ih =>
    obtain ⟨b, hb, hstands⟩ := ih (h.joins hx) (by omega)
    refine ⟨b, .asks (by rw [h.inFlight]; omega) hb, ?_⟩
    rw [show k + (j + 1) = k + 1 + j by omega]
    exact hstands

/-- All calls under way fail. -/
theorem Stands.collapse (h : Stands limit key n x k a) (f : Failure) (hk : k ≤ w + 1) :
    ∃ b y, Leads limit key w a b ∧ Stands limit key n y 0 b ∧ y.attempts = x.attempts + k := by
  induction k generalizing a x with
  | zero => exact ⟨a, x, leads_refl (by rw [h.inFlight]; omega), h, rfl⟩
  | succ k ih =>
    obtain ⟨b, y, hb, hstands, hy⟩ := ih (h.counts f) (by omega)
    refine ⟨b, y, .fails (by rw [h.inFlight]; omega) hb, hstands, ?_⟩
    rw [hy]
    change x.attempts + 1 + k = _
    omega

theorem Leads.trans {b c : Tracked} (h : Leads limit key w a b) (h' : Leads limit key w b c) :
    Leads limit key w a c := by
  obtain ⟨ms, hkeep, hover, rfl⟩ := h
  induction ms generalizing a with
  | nil => exact h'
  | cons m ms ih =>
    refine .cons (hkeep m (.head _)) (hover [] (List.nil_prefix ..)) ?_
    exact ih (fun m' hm' => hkeep m' (.tail _ hm'))
      (fun earlier he => hover (m :: earlier) (List.cons_prefix_cons.mpr ⟨rfl, he⟩)) h'

/-- **The bound is met.** Whatever the limit, calls that fail with a failure it retries can overlap
so that the entry counts `w` attempts more than the limit. -/
theorem attempts_met (limit : AttemptLimit) (hf : limit.retries f = true) (key : String) (w : Nat)
    {capacity : Nat} (h : 0 < capacity) :
    ∃ a x, Leads limit key w ⟨⟨Ledger.empty capacity, []⟩, 0⟩ a ∧
      a.traffic.ledger.get? key = some x ∧ x.attempts = limit.limit + w := by
  have hpos := limit.limit_pos
  have hfirst := stands_first limit key h
  obtain ⟨b, y, hb, hstands, hy, hyes⟩ := hfirst.advance (w := w) hf (j := limit.limit - 1)
    (limit.allows_unfailed rfl rfl) (by change 0 + (limit.limit - 1) < _; omega)
  obtain ⟨c, hc, hcrowd⟩ := hstands.crowd (w := w) hyes (j := w) (by omega)
  obtain ⟨d, z, hd, hlast, hz⟩ := hcrowd.collapse (w := w) f (by omega)
  refine ⟨d, z, .asks (Nat.zero_le _) (hb.trans (hc.trans hd)), ?_, ?_⟩
  · rw [hlast.sound.ledger.get?_eq, hlast.current]; rfl
  · change y.attempts = 0 + (limit.limit - 1) at hy
    omega

end Tracked

end CallGuard
