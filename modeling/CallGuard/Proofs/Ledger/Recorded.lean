import CallGuard.Proofs.Ledger.Effects
/-! # Which failures an entry records when calls overlap

A call settles the sequence that it was admitted for, also when the entry of its key has been
dropped since, and perhaps opened anew. So the entry records a failure only if the call was admitted
after the entry was dropped the last time. `recorded_iff` says when nothing is lost: the entry tells
of all failures since it was dropped, exactly if none of them is of a call that was under way when
it was dropped. -/

namespace CallGuard

/-- The calls under way with their dates: how often the entry of a key had been dropped when they
were admitted. -/
structure Dated where
  traffic : Traffic
  /-- How often the entry of the key has been dropped. -/
  drops : Nat
  /-- The dates of the calls under way, by place. -/
  admitted : List Nat
  /-- The dates of the calls under the key that have failed since the entry was dropped. -/
  failed : List Nat

namespace Dated

def start (l : Ledger) : Dated := ⟨⟨l, []⟩, 0, [], []⟩

/-- The date of the call under the key that fails with the move, if one does. -/
def failing (key : String) (a : Dated) : Move → List Nat
  | .fails place f now =>
    if a.traffic.failsUnder key (.fails place f now) then a.admitted[place]?.toList else []
  | _ => []

def step (key : String) (a : Dated) (m : Move) : Dated :=
  let next := a.traffic.step m
  let dropped := a.traffic.drops key m
  let come := next.flights.length - (m.clear a.traffic.flights).length
  { traffic := next
    drops := if dropped then a.drops + 1 else a.drops
    admitted := m.clear a.admitted ++ List.replicate come a.drops
    failed := if dropped then [] else a.failing key m ++ a.failed }

/-- What comes of a list of moves. -/
def run (key : String) (a : Dated) (ms : List Move) : Dated := ms.foldl (step key) a

/-- The calls under way that are of the last date are those for the key's current sequence, and the
entry counts the failures of that date. -/
structure Reckoned (limit : AttemptLimit) (key : String) (a : Dated) : Prop where
  sound : a.traffic.Sound
  limited : ∀ fl ∈ a.traffic.flights, fl.key = key → fl.policy = .attempts limit
  paired : a.admitted.length = a.traffic.flights.length
  past : ∀ n ∈ a.admitted, n ≤ a.drops
  dated : ∀ (i : Nat) (fl : Flight) (n : Nat), a.traffic.flights[i]? = some fl →
    a.admitted[i]? = some n → fl.key = key →
    (n = a.drops ↔ a.traffic.ledger.live.get? key = some fl.sequence)
  idle : a.traffic.ledger.current? key = none → a.failed.count a.drops = 0
  counted : ∀ n x, a.traffic.ledger.current? key = some (n, x) →
    x.attempts = a.failed.count a.drops

variable {limit : AttemptLimit} {key : String} {a : Dated} {m : Move} {comes : List Flight}

theorem reckoned_start {l : Ledger} (h : l.Sound) (hnew : l.get? key = none) :
    Reckoned limit key (start l) where
  sound := Traffic.sound_begin h
  limited := nofun
  paired := rfl
  past := nofun
  dated i fl n hfl := by cases hfl
  idle _ := rfl
  counted n x hc := by
    change l.current? key = _ at hc
    rw [h.get?_eq, hc] at hnew; cases hnew

/-! ## Dates -/

theorem step_traffic (a : Dated) (m : Move) : (a.step key m).traffic = a.traffic.step m := rfl

/-- A call that comes gets the present date. -/
theorem step_admitted (hf : (a.traffic.step m).flights = m.clear a.traffic.flights ++ comes) :
    (a.step key m).admitted = m.clear a.admitted ++ List.replicate comes.length a.drops := by
  unfold step
  dsimp only
  rw [hf, List.length_append, Nat.add_sub_cancel_left]

theorem drops_eq (h : a.traffic.Sound) : a.traffic.drops key m =
    ((a.traffic.ledger.current? key).isSome &&
      ((a.traffic.step m).ledger.current? key).isNone) := by
  unfold Traffic.drops
  rw [h.ledger.get?_eq, (h.step m).ledger.get?_eq, Option.isSome_map, Option.isNone_map]

/-- A call under way after a move was under way before and has kept its date, or it has come. -/
theorem Reckoned.before (h : Reckoned limit key a)
    (hf : (a.traffic.step m).flights = m.clear a.traffic.flights ++ comes) {i : Nat} {fl : Flight}
    {n : Nat} (hfl : (a.step key m).traffic.flights[i]? = some fl)
    (hn : (a.step key m).admitted[i]? = some n) :
    (∃ j : Nat, a.traffic.flights[j]? = some fl ∧ a.admitted[j]? = some n) ∨
      fl ∈ comes ∧ n = a.drops := by
  have hlength := m.length_clear h.paired
  rw [step_traffic, hf, List.getElem?_append] at hfl
  rw [step_admitted hf, List.getElem?_append, hlength] at hn
  split at hfl
  · next hold =>
    rw [if_pos hold] at hn
    obtain ⟨j, hj⟩ := m.getElem?_clear i
    exact .inl ⟨j, by rw [← hj]; exact hfl, by rw [← hj]; exact hn⟩
  · next hnew =>
    rw [if_neg hnew] at hn
    exact .inr ⟨List.mem_of_getElem? hfl, List.eq_of_mem_replicate (List.mem_of_getElem? hn)⟩

theorem Reckoned.paired_step (h : Reckoned limit key a)
    (hf : (a.traffic.step m).flights = m.clear a.traffic.flights ++ comes) :
    (a.step key m).admitted.length = (a.step key m).traffic.flights.length := by
  rw [step_traffic, hf, step_admitted hf, List.length_append, List.length_append,
    List.length_replicate, m.length_clear h.paired]

theorem Reckoned.limited_step (h : Reckoned limit key a)
    (hf : (a.traffic.step m).flights = m.clear a.traffic.flights ++ comes)
    (hcomes : ∀ fl ∈ comes, fl.key = key → fl.policy = .attempts limit) :
    ∀ fl ∈ (a.step key m).traffic.flights, fl.key = key → fl.policy = .attempts limit := by
  intro fl hfl hk
  rw [step_traffic, hf] at hfl
  rcases List.mem_append.mp hfl with hfl | hfl
  · exact h.limited fl (Move.mem_clear hfl) hk
  · exact hcomes fl hfl hk

theorem Reckoned.past_step (h : Reckoned limit key a)
    (hf : (a.traffic.step m).flights = m.clear a.traffic.flights ++ comes) :
    ∀ n ∈ (a.step key m).admitted, n ≤ a.drops := by
  intro n hn
  rw [step_admitted hf] at hn
  rcases List.mem_append.mp hn with hn | hn
  · exact h.past n (Move.mem_clear hn)
  · exact Nat.le_of_eq (List.eq_of_mem_replicate hn)

/-! ## One move -/

/-- A move that leaves the entry, or leaves the key without one. -/
theorem Reckoned.goes_on (h : Reckoned limit key a)
    (hf : (a.traffic.step m).flights = m.clear a.traffic.flights ++ comes)
    (hstays : (a.traffic.ledger.current? key).isSome →
      ((a.traffic.step m).ledger.current? key).isSome)
    (hcomes : ∀ fl ∈ comes, fl.key = key → fl.policy = .attempts limit ∧
      (a.traffic.step m).ledger.live.get? key = some fl.sequence)
    (hlive : ∀ fl ∈ a.traffic.flights, fl.key = key →
      ((a.traffic.step m).ledger.live.get? key = some fl.sequence ↔
        a.traffic.ledger.live.get? key = some fl.sequence))
    (hidle : (a.traffic.step m).ledger.current? key = none →
      (a.failing key m ++ a.failed).count a.drops = 0)
    (hcounted : ∀ n x, (a.traffic.step m).ledger.current? key = some (n, x) →
      x.attempts = (a.failing key m ++ a.failed).count a.drops) :
    Reckoned limit key (a.step key m) := by
  have hkept : a.traffic.drops key m = false := by
    rw [drops_eq h.sound]
    cases hc : (a.traffic.ledger.current? key).isSome with
    | false => rfl
    | true => rw [Bool.true_and, ← Option.not_isSome, hstays hc]; rfl
  have hdrops : (a.step key m).drops = a.drops := by simp [step, hkept]
  have hfailed : (a.step key m).failed = a.failing key m ++ a.failed := by simp [step, hkept]
  refine ⟨h.sound.step m, h.limited_step hf fun fl hfl hk => (hcomes fl hfl hk).1, h.paired_step hf,
    ?_, fun i fl n hfl hn hk => ?_, ?_, ?_⟩
  · rw [hdrops]; exact h.past_step hf
  · rw [hdrops, step_traffic]
    rcases h.before hf hfl hn with ⟨j, hj, hjn⟩ | ⟨hmem, rfl⟩
    · rw [hlive fl (List.mem_of_getElem? hj) hk]
      exact h.dated j fl n hj hjn hk
    · exact ⟨fun _ => (hcomes fl hmem hk).2, fun _ => rfl⟩
  · rw [hdrops, hfailed]; exact hidle
  · rw [hdrops, hfailed]; exact hcounted

/-- A move that drops the entry: a new date begins. -/
theorem Reckoned.starts_over (h : Reckoned limit key a)
    (hf : (a.traffic.step m).flights = m.clear a.traffic.flights)
    (hsome : (a.traffic.ledger.current? key).isSome)
    (hgone : (a.traffic.step m).ledger.current? key = none) : Reckoned limit key (a.step key m) := by
  have hf : (a.traffic.step m).flights = m.clear a.traffic.flights ++ [] := by
    rw [hf, List.append_nil]
  have hdropped : a.traffic.drops key m = true := by
    rw [drops_eq h.sound, hsome, hgone]; rfl
  have hdrops : (a.step key m).drops = a.drops + 1 := by simp [step, hdropped]
  have hfailed : (a.step key m).failed = [] := by simp [step, hdropped]
  have hpast := h.past_step hf
  refine ⟨h.sound.step m, h.limited_step hf nofun, h.paired_step hf, fun n hn => ?_,
    fun i fl n hfl hn hk => ?_, fun _ => by rw [hfailed]; rfl, fun n x hc => ?_⟩
  · rw [hdrops]; exact Nat.le_succ_of_le (hpast n hn)
  · rw [hdrops, step_traffic, (h.sound.step m).ledger.live_eq, hgone]
    have := hpast n (List.mem_of_getElem? hn)
    exact ⟨fun hnew => by omega, nofun⟩
  · rw [step_traffic, hgone] at hc; cases hc

/-- A move that leaves the entry as it is, and nobody of the key fails with it. -/
theorem Reckoned.same (h : Reckoned limit key a)
    (hf : (a.traffic.step m).flights = m.clear a.traffic.flights ++ comes)
    (hc : (a.traffic.step m).ledger.current? key = a.traffic.ledger.current? key)
    (hcomes : ∀ fl ∈ comes, fl.key ≠ key) (hfailing : a.failing key m = []) :
    Reckoned limit key (a.step key m) := by
  refine h.goes_on hf (by rw [hc]; exact id) (fun fl hfl hk => absurd hk (hcomes fl hfl))
    (fun fl _ _ => by rw [h.sound.ledger.live_congr (h.sound.step m).ledger hc]) ?_ ?_
  · rw [hc, hfailing]; exact h.idle
  · rw [hc, hfailing]; exact h.counted

theorem Reckoned.admits (h : Reckoned limit key a) {created n : Nat} {x : Context}
    (hopens : a.traffic.ledger.Opens key false created n x)
    (hc : (a.traffic.step m).ledger.current? key = some (n, x))
    (hf : (a.traffic.step m).flights =
      m.clear a.traffic.flights ++ [⟨key, .attempts limit, n⟩])
    (hfailing : a.failing key m = []) : Reckoned limit key (a.step key m) := by
  have hlive : (a.traffic.step m).ledger.live.get? key = some n := by
    rw [(h.sound.step m).ledger.live_eq, hc]; rfl
  refine h.goes_on hf (fun _ => by rw [hc]; rfl) (fun fl hfl _ => ?_) (fun fl hfl _ => ?_)
    (fun hnone => ?_) fun k y hy => ?_
  · cases List.mem_singleton.mp hfl
    exact ⟨rfl, hlive⟩
  · rw [hlive, h.sound.ledger.live_eq]
    cases hopens with
    | known _ hknown => rw [hknown]; rfl
    | new hnone =>
      rw [hnone rfl]
      have hold := h.sound.opened fl hfl
      exact ⟨fun hnew => absurd (Option.some.inj hnew) (Nat.ne_of_gt hold), nofun⟩
  · rw [hc] at hnone; cases hnone
  · rw [hc] at hy
    cases hy
    rw [hfailing]
    cases hopens with
    | known _ hknown => exact h.counted n x hknown
    | new hnone => exact (h.idle (hnone rfl)).symm

/-- The entry counts the failure of a call that was admitted since it was dropped the last time. -/
theorem Reckoned.fails (h : Reckoned limit key a) {place now n : Nat} {f : Failure} {fl : Flight}
    (hfl : a.traffic.flights[place]? = some fl) (hk : fl.key = key)
    (hn : a.admitted[place]? = some n)
    (hc : (a.traffic.step (.fails place f now)).ledger.current? key =
      (a.traffic.ledger.current? key).map fun e =>
        if e.1 = fl.sequence then (fl.sequence, e.2.fail f) else e)
    (hf : (a.traffic.step (.fails place f now)).flights = a.traffic.flights.eraseIdx place) :
    Reckoned limit key (a.step key (.fails place f now)) := by
  have hfailing : a.failing key (.fails place f now) = [n] := by
    simp [failing, Traffic.failsUnder, hfl, hk, hn]
  have hdate := h.dated place fl n hfl hn hk
  rw [h.sound.ledger.live_eq] at hdate
  have hf := hf.trans (List.append_nil _).symm
  refine h.goes_on hf (by rw [hc, Option.isSome_map]; exact id) (List.forall_mem_nil _)
    (fun g _ _ => by rw [Traffic.live_fails]) (fun hnone => ?_) fun k y hy => ?_
  · rw [hc, Option.map_eq_none_iff] at hnone
    rw [hnone] at hdate
    have hne : n ≠ a.drops := fun he => by cases hdate.mp he
    rw [hfailing, List.singleton_append, List.count_cons_of_ne hne]
    exact h.idle hnone
  · rw [hc, Option.map_eq_some_iff] at hy
    obtain ⟨⟨i, x⟩, hx, hy⟩ := hy
    rw [hx, Option.map_some, Option.some.injEq] at hdate
    rw [hfailing, List.singleton_append]
    -- the entry counts the failure exactly if the call is of the last date
    by_cases hi : i = fl.sequence
    · rw [if_pos hi] at hy
      obtain ⟨-, rfl⟩ := Prod.mk.inj hy
      rw [hdate.mpr hi, List.count_cons_self, ← h.counted i x hx]; rfl
    · rw [if_neg hi] at hy
      cases hy
      rw [List.count_cons_of_ne fun he => hi (hdate.mp he)]
      exact h.counted _ _ hx

/-- **One move keeps the reckoning.** -/
theorem Reckoned.step (h : Reckoned limit key a) (hkeep : m.KeepsTo key (.attempts limit)) :
    Reckoned limit key (a.step key m) := by
  cases h.sound.effect key m with
  | admitted hopens _ hc hf =>
    obtain ⟨rfl, rfl⟩ := hkeep rfl
    exact h.admits hopens hc hf rfl
  | refused hopens hno hc hf =>
    obtain ⟨rfl, rfl⟩ := hkeep rfl
    cases hopens with
    | known _ hknown => exact h.starts_over hf (by rw [hknown]; rfl) hc
    | new =>
      rw [Policy.check_allowed, AttemptLimit.allows_unfailed _ rfl rfl] at hno; cases hno
  | turnedAway _ hb =>
    have hf := congrArg Traffic.flights hb |>.trans (List.append_nil _).symm
    exact h.same hf (by rw [hb]) (List.forall_mem_nil _) rfl
  | @failed place now f fl hfl hk hc hf =>
    rw [h.limited fl (List.mem_of_getElem? hfl) hk] at hc
    obtain ⟨hlt, -⟩ := List.getElem?_eq_some_iff.mp hfl
    rw [← h.paired] at hlt
    exact h.fails hfl hk (List.getElem?_eq_getElem hlt) hc hf
  | succeeded hfl hk hc hf =>
    rw [h.limited _ (List.mem_of_getElem? hfl) hk] at hc
    cases hbefore : a.traffic.ledger.current? key with
    | none =>
      have hf := hf.trans (List.append_nil _).symm
      exact h.same hf (by rw [hc, hbefore]; rfl) (List.forall_mem_nil _) rfl
    | some e => exact h.starts_over hf (by rw [hbefore]; rfl) hc
  | elsewhere hother hc hf hcomes =>
    refine h.same hf hc hcomes ?_
    cases m with
    | fails place f now =>
      change a.traffic.failsUnder key (.fails place f now) = false at hother
      exact if_neg (by rw [hother]; nofun)
    | _ => rfl

theorem Reckoned.run (h : Reckoned limit key a) {ms : List Move}
    (hkeep : ∀ m ∈ ms, m.KeepsTo key (.attempts limit)) : Reckoned limit key (a.run key ms) := by
  induction ms generalizing a with
  | nil => exact h
  | cons m ms ih => exact ih (h.step (hkeep m (.head _))) fun m' hm' => hkeep m' (.tail _ hm')

/-- A failure drops no entry. -/
theorem Reckoned.failed_kept (h : Reckoned limit key a) {place n : Nat} {fl : Flight}
    (hfl : a.traffic.flights[place]? = some fl) (hk : fl.key = key)
    (hn : a.admitted[place]? = some n) (f : Failure) (now : Nat) :
    (a.step key (.fails place f now)).drops = a.drops ∧
      (a.step key (.fails place f now)).failed = n :: a.failed := by
  have hkept : a.traffic.drops key (.fails place f now) = false := by
    rw [drops_eq h.sound, Traffic.step_fails hfl, h.sound.ledger.current?_fail, Option.isNone_map,
      ← Option.not_isSome, Bool.and_not_self]
  simp [Dated.step, failing, hkept, Traffic.failsUnder, hfl, hk, hn]

/-- The call that fails was admitted since the entry was dropped: the entry tells of it. -/
theorem Reckoned.last_failed (h : Reckoned limit key a) {place n : Nat} {fl : Flight}
    (hfl : a.traffic.flights[place]? = some fl) (hk : fl.key = key)
    (hn : a.admitted[place]? = some n) (hdate : n = a.drops) (f : Failure) (now : Nat) :
    ∃ x, (a.step key (.fails place f now)).traffic.ledger.get? key = some x ∧ x.last = some f := by
  obtain ⟨x, hx⟩ := h.sound.ledger.entry_of_live ((h.dated place fl n hfl hn hk).mp hdate)
  refine ⟨x.fail f, ?_, rfl⟩
  rw [step_traffic, (h.sound.step _).ledger.get?_eq, Traffic.step_fails hfl,
    h.sound.ledger.current?_fail, hx, Option.map_some, if_pos rfl,
    h.limited fl (List.mem_of_getElem? hfl) hk]
  rfl

/-- **Which failures the entry tells of.** The moves begin with a sound ledger that has no entry for
the key, and a call under the key fails. Then the entry, if there is one, counts the failed calls
that were admitted since the entry was dropped the last time; and there is one that tells of the
last failure and of all others since then, exactly if no call has failed that was under way when the
entry was dropped. -/
theorem recorded_iff {l : Ledger} (hl : l.Sound) (hnew : l.get? key = none) {ms : List Move}
    (hkeep : ∀ m ∈ ms, m.KeepsTo key (.attempts limit)) {place : Nat} {fl : Flight}
    (hfl : (run key (start l) ms).traffic.flights[place]? = some fl) (hk : fl.key = key)
    (f : Failure) (now : Nat) :
    let a := (run key (start l) ms).step key (.fails place f now)
    (∀ x, a.traffic.ledger.get? key = some x → x.attempts = a.failed.count a.drops) ∧
    ((∃ x, a.traffic.ledger.get? key = some x ∧ x.last = some f ∧ x.attempts = a.failed.length) ↔
      ∀ n ∈ a.failed, n = a.drops) := by
  intro a
  have before : Reckoned limit key (run key (start l) ms) := (reckoned_start hl hnew).run hkeep
  have after : Reckoned limit key a := before.step trivial
  have counted (x : Context) (hx : a.traffic.ledger.get? key = some x) :
      x.attempts = a.failed.count a.drops := by
    rw [after.sound.ledger.get?_eq, Option.map_eq_some_iff] at hx
    obtain ⟨⟨n, x⟩, hc, rfl⟩ := hx
    exact after.counted n x hc
  refine ⟨counted, fun hfull n hn => ?_, fun hall => ?_⟩
  · obtain ⟨x, hx, -, hall⟩ := hfull
    rw [counted x hx, List.count_eq_length] at hall
    exact (hall n hn).symm
  · obtain ⟨hlt, -⟩ := List.getElem?_eq_some_iff.mp hfl
    rw [← before.paired] at hlt
    have hn := List.getElem?_eq_getElem hlt
    obtain ⟨hdrops, hfailed⟩ := before.failed_kept hfl hk hn f now
    have hdate := hall _ (by rw [hfailed]; exact .head _)
    rw [hdrops] at hdate
    obtain ⟨x, hx, hlast⟩ := before.last_failed hfl hk hn hdate f now
    refine ⟨x, hx, hlast, (counted x hx).trans (List.count_eq_length.mpr fun n hn => ?_)⟩
    exact (hall n hn).symm

/-! ## A call that is overtaken -/

def late : Failure := ⟨⟨.root "Down" "Down", "late"⟩, []⟩

def admission : Move := .asks "k" (.attempts (.retrying 2)) false 0 0

/-- Two calls are admitted, and one of them succeeds. -/
def overtaking : List Move := [admission, admission, .succeeds 0]

def remaining : Flight := ⟨"k", .attempts (.retrying 2), 0⟩

theorem overtaking_keepsTo : ∀ m ∈ overtaking, m.KeepsTo "k" (.attempts (.retrying 2)) := by
  intro m hm
  simp only [overtaking, List.mem_cons, List.not_mem_nil, or_false] at hm
  rcases hm with rfl | rfl | rfl
  · exact fun _ => ⟨rfl, rfl⟩
  · exact fun _ => ⟨rfl, rfl⟩
  · trivial

theorem recorded_iff_overtaking :
    let a := (run "k" (start (.empty 1)) overtaking).step "k" (.fails 0 late 0)
    (∀ x, a.traffic.ledger.get? "k" = some x → x.attempts = a.failed.count a.drops) ∧
    ((∃ x, a.traffic.ledger.get? "k" = some x ∧ x.last = some late ∧
        x.attempts = a.failed.length) ↔
      ∀ n ∈ a.failed, n = a.drops) := by
  have hfl : (run "k" (start (.empty 1)) overtaking).traffic.flights[0]? = some remaining := rfl
  exact recorded_iff (Ledger.sound_empty 1) rfl overtaking_keepsTo hfl rfl late 0

/-- The other one fails, and the ledger does not tell of it. -/
theorem overtaken_failure_lost :
    let a := (run "k" (start (.empty 1)) overtaking).step "k" (.fails 0 late 0)
    (∀ m ∈ overtaking, m.KeepsTo "k" (.attempts (.retrying 2))) ∧
      a.drops = 1 ∧ a.failed.length = 1 ∧ a.traffic.ledger.get? "k" = none ∧
      ¬ ∃ x, a.traffic.ledger.get? "k" = some x ∧ x.last = some late ∧
        x.attempts = a.failed.length := by
  have hnone : ((run "k" (start (.empty 1)) overtaking).step "k"
      (.fails 0 late 0)).traffic.ledger.get? "k" = none := by decide
  refine ⟨overtaking_keepsTo, by decide, by decide, hnone, fun ⟨x, hx, _⟩ => ?_⟩
  rw [hnone] at hx; cases hx

/-- If another call has been admitted by then, its entry does not tell of it either. -/
example : ((run "k" (start (.empty 1)) (overtaking ++ [admission])).step "k"
    (.fails 0 late 0)).traffic.ledger.get? "k" = some (Context.fresh 0) := by decide

end Dated

end CallGuard
