import CallGuard.Proofs.Runs
/-! # A key under an attempt limit is a private counter

What the ledger keeps for such a key is the count and the latest of the failures since the key was
last given up. So the state of the counter is the list of these failures, the latest first, and a
key without failures is not kept at all. -/

namespace CallGuard

variable {ι γ : Type}

namespace Tally

/-- Whether no attempt is left after these failures. -/
def spent (limit : AttemptLimit) : List Failure → Bool
  | [] => false
  | last :: earlier => !limit.retries last || decide (earlier.length + 1 = limit.limit)

/-- What a call shows, and what it makes of the counter. -/
inductive Serves (limit : AttemptLimit) (i : Nat) :
    List Failure → Round ι γ × Visit → List Failure → Prop
  | refused {r : Round ι γ} {v : Visit} {last : Failure} {earlier : List Failure} :
      spent limit (last :: earlier) = true → v.attempts = [] → v.pauses = [] →
      v.result = (r.terms i).recovery r.call.arguments last
        (.exhausted (earlier.length + 1) last) →
      Serves limit i (last :: earlier) (r, v) []
  | succeeded {r : Round ι γ} {v : Visit} {fs : List Failure} {value : Json} {ended : Nat} :
      spent limit fs = false → v.attempts = [⟨[], .ok value, ended⟩] → v.pauses = [] →
      v.result = .ok value → Serves limit i fs (r, v) []
  | failed {r : Round ι γ} {v : Visit} {fs : List Failure} {f : Failure} {ended : Nat}
      {words : Words} :
      spent limit fs = false → v.attempts = [⟨[], .error f, ended⟩] →
      v.pauses = (if spent limit (f :: fs) then []
        else (r.terms i).pausesAfter (fs.length + 1) words) →
      v.result = .error (.failed f) → Serves limit i fs (r, v) (f :: fs)

/-- What is kept for the key shows the counter. -/
def Kept (limit : AttemptLimit) (kept : Option Context) : List Failure → Prop
  | [] => kept = none
  | last :: earlier => earlier.length + 1 ≤ limit.limit ∧
      ∃ x, kept = some x ∧ x.attempts = earlier.length + 1 ∧ x.last = some last

variable {limit : AttemptLimit} {fs : List Failure} {i : Nat}

theorem Kept.length_le {kept : Option Context} (h : Kept limit kept fs) :
    fs.length ≤ limit.limit := by
  cases fs with
  | nil => exact Nat.zero_le _
  | cons last earlier => exact h.1

/-- The context that a call is judged by shows the counter as well. -/
theorem Kept.found {found : Option Context} (h : Kept limit found fs) (now : Nat) :
    (found.getD (Context.fresh now)).attempts = fs.length ∧
      (found.getD (Context.fresh now)).last = fs.head? := by
  cases fs with
  | nil => rw [show found = none from h]; exact ⟨rfl, rfl⟩
  | cons last earlier =>
    obtain ⟨-, x, rfl, ha, hl⟩ := h
    exact ⟨ha, hl⟩

/-- The limit allows an attempt just when one is left. -/
theorem allows_eq_left {x : Context} (ha : x.attempts = fs.length) (hl : x.last = fs.head?)
    (hle : fs.length ≤ limit.limit) : limit.allows x = !spent limit fs := by
  cases fs with
  | nil => rw [limit.allows_unfailed hl ha]; rfl
  | cons last earlier =>
    rw [limit.allows_failed hl, ha]
    have : decide ((last :: earlier).length < limit.limit) =
        !decide (earlier.length + 1 = limit.limit) := by
      rw [← decide_not, decide_eq_decide]
      simp only [List.length_cons] at hle ⊢
      omega
    rw [this]
    simp [spent]

/-- With an attempt left, one more failure stays within the limit. -/
theorem length_lt_of_left (hle : fs.length ≤ limit.limit) (h : spent limit fs = false) :
    fs.length + 1 ≤ limit.limit := by
  cases fs with
  | nil => exact limit.limit_pos
  | cons last earlier =>
    simp only [spent, Bool.or_eq_false_iff, decide_eq_false_iff_not] at h
    simp only [List.length_cons] at hle ⊢
    omega

/-- **A call on the terms of the limit is a step of the counter.** -/
theorem Kept.serve {r : Round ι γ} {v : Visit} (hk : Kept limit v.found fs)
    (hp : r.policy = .attempts limit) (hv : Served (r.terms i) r.call.arguments v)
    (hroom : v.turnedAway = false) :
    ∃ fs', Serves limit i fs (r, v) fs' ∧ Kept limit v.left fs' := by
  have hterms : (r.terms i).policy = .attempts limit := hp
  obtain ⟨ha, hl⟩ := hk.found v.begun
  have hle := hk.length_le
  have hasked : (v.admission (.attempts limit)).allowed = !spent limit fs :=
    allows_eq_left ha hl hle
  have hshared : (Policy.attempts limit).isShared = false := rfl
  cases hv with
  | full n _ _ _ hfull => unfold Visit.turnedAway at hroom; rw [hfull] at hroom; cases hroom
  | refused last hno hlast hatt hpau hres hleft =>
    rw [hterms] at hno hlast hleft
    rw [hshared, if_neg (by decide)] at hleft
    have hspent : spent limit fs = true := by rw [hasked] at hno; simpa using hno
    have hhead : fs.head? = some last := hl.symm.trans hlast
    obtain ⟨earlier, rfl⟩ : ∃ earlier, fs = last :: earlier := List.head?_eq_some_iff.mp hhead
    refine ⟨[], .refused hspent hatt hpau ?_, hleft⟩
    rw [hres]
    unfold Terms.refusal
    rw [hterms]
    exact congrArg (fun n => (r.terms i).recovery _ last (.exhausted n last)) ha
  | succeeded value ended hyes hatt hpau hres hleft =>
    rw [hterms] at hyes hleft
    rw [hshared, if_neg (by decide)] at hleft
    have hspent : spent limit fs = false := by rw [hasked] at hyes; simpa using hyes
    exact ⟨[], .succeeded hspent hatt hpau hres, hleft⟩
  | failed f ended words after hyes hatt hres hafter hleft hpau =>
    rw [hterms] at hyes hafter
    have hspent : spent limit fs = false := by rw [hasked] at hyes; simpa using hyes
    have hlt := length_lt_of_left hle hspent
    have hcount : after.context.attempts = fs.length + 1 := by
      rw [hafter]; exact congrArg (· + 1) ha
    have hlast : after.context.last = some f := by rw [hafter]; rfl
    have hagain : after.allowed = !spent limit (f :: fs) := by
      have hsaid : limit.allows after.context = !spent limit (f :: fs) :=
        allows_eq_left hcount hlast hlt
      rw [← hsaid, hafter]; rfl
    have hpauses : v.pauses = (if spent limit (f :: fs) then []
        else (r.terms i).pausesAfter (fs.length + 1) words) := by
      rw [hpau, hagain, hcount]
      cases spent limit (f :: fs) <;> rfl
    exact ⟨f :: fs, .failed hspent hatt hpauses hres, hlt, _, hleft, hcount, hlast⟩

/-- **Calls with a key under an attempt limit run its counter.** The calls under one key, all on the
terms of one attempt limit and never short of room, count from nothing; calls under other keys may
come in between on whatever terms, and what is kept for the key at the end shows the counter. -/
theorem play_counts (patience : Nat) {key : String} {rounds : List (Round ι γ)}
    (hseq : ∀ r ∈ rounds, r.Sequential i key)
    (hpolicy : ∀ r ∈ rounds, r.key = key → r.policy = .attempts limit) {s : Session ι γ}
    (hs : (s.ledgers.get i).Sound) (hnew : (s.ledgers.get i).get? key = none) :
    ∃ seen t, (play patience i rounds).Returns s seen t ∧ seen.map Prod.fst = rounds ∧
      ((∀ e ∈ under key seen, e.2.turnedAway = false) →
        ∃ fs, Traces (fun fs e fs' => Serves limit i fs e fs' ∧ Kept limit e.2.left fs')
          [] (under key seen) fs ∧ Kept limit ((t.ledgers.get i).get? key) fs) := by
  obtain ⟨seen, t, hplay, hmap, -, hchain⟩ := play_chained patience hseq hs
  refine ⟨seen, t, hplay, hmap, fun hroom => ?_⟩
  rw [hnew] at hchain
  exact hchain.simulate (fun kept fs => Kept limit kept fs)
    (fun fs e fs' => Serves limit i fs e fs' ∧ Kept limit e.2.left fs')
    (fun e he found left fs hk ⟨hfound, hleft, hserved⟩ => by
      obtain ⟨hmem, hkey⟩ := of_under hmap he
      obtain ⟨fs', hstep, hkept⟩ := Kept.serve (hfound ▸ hk) (hpolicy e.1 hmem hkey) hserved
        (hroom e he)
      exact ⟨fs', ⟨hstep, hkept⟩, hleft ▸ hkept⟩)
    (show Kept limit none [] from rfl)

/-- Used up by two failures. -/
def patient : AttemptLimit := ⟨2, .retryAll, by decide⟩

/-- A key fails twice and is refused, and another one succeeds in between. -/
def week : List (Round Unit Unit) :=
  let down : Except Failure Json := .error ⟨⟨.root "Down" "Down", "down"⟩, []⟩
  [.simple (.attempts patient) "a" Duration.zero down,
    .simple (.attempts patient) "b" Duration.zero (.ok .null),
    .simple (.attempts patient) "a" Duration.zero down,
    .simple (.attempts patient) "a" Duration.zero (.ok .null)]

theorem play_counts_week :
    ∃ seen t, (play 0 0 week).Returns (Session.begin ()) seen t ∧ seen.map Prod.fst = week ∧
      ∃ fs, Traces (fun fs e fs' => Serves patient 0 fs e fs' ∧ Kept patient e.2.left fs')
        [] (under "a" seen) fs ∧ Kept patient ((t.ledgers.get 0).get? "a") fs := by
  have hrounds : ∀ r ∈ week, r.Sequential 0 "a" ∧ r.policy = .attempts patient := by
    intro r hr
    simp only [week, List.mem_cons, List.not_mem_nil, or_false] at hr
    rcases hr with rfl | rfl | rfl | rfl <;> exact ⟨Round.simple_sequential .., rfl⟩
  have hroom : ((play 0 0 week).run (Session.begin ())).all
      (fun p => p.1.all fun e => !e.2.turnedAway) = true := by decide +kernel
  obtain ⟨seen, t, hplay, hmap, hcounts⟩ := play_counts 0 (fun r hr => (hrounds r hr).1)
    (fun r hr _ => (hrounds r hr).2) (s := Session.begin ()) (Ledger.sound_empty _) rfl
  exact ⟨seen, t, hplay, hmap, hcounts (housed_of_run hplay hroom)⟩

end Tally

end CallGuard
