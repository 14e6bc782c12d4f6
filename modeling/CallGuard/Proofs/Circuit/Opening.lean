import CallGuard.Proofs.Circuit.Check
/-! # How long an open circuit stays open

An open circuit is to stay open for its reset timeout. It does so as long as no failure is counted
while it is open: a check asks the attempt limit before it looks at the flag, so a late failure of a
call that was under way can make the limit allow an attempt again. `stays_open_iff` says exactly
when that happens. It takes a circuit that was opened by a failure not worth another attempt, with
attempts left. -/

namespace CallGuard

/-- What can happen to the context of a circuit. -/
inductive Moment where
  | failure (f : Failure)
  | check (now : Nat)
deriving DecidableEq, Repr

namespace Moment

def failures (ms : List Moment) : List Failure :=
  ms.filterMap fun
    | failure f => some f
    | check _ => none

def times (ms : List Moment) : List Nat :=
  ms.filterMap fun
    | failure _ => none
    | check now => some now

/-- Something holds of every check: of the moments before it and of its time. -/
def EachCheck (q : List Moment → Nat → Prop) (ms : List Moment) : Prop :=
  ∀ mid now rest, ms = mid ++ .check now :: rest → q mid now

variable {q : List Moment → Nat → Prop} {f : Failure} {n : Nat} {ms : List Moment}

theorem eachCheck_nil : EachCheck q [] := by
  intro mid now rest h; cases mid <;> cases h

theorem eachCheck_failure :
    EachCheck q (.failure f :: ms) ↔ EachCheck (fun mid => q (.failure f :: mid)) ms := by
  constructor
  · intro h mid now rest hms
    exact h (.failure f :: mid) now rest (by rw [hms]; rfl)
  · intro h mid now rest hms
    cases mid with
    | nil => cases hms
    | cons m mid => cases hms; exact h mid now rest rfl

theorem eachCheck_check :
    EachCheck q (.check n :: ms) ↔ q [] n ∧ EachCheck (fun mid => q (.check n :: mid)) ms := by
  constructor
  · intro h
    exact ⟨h [] n ms rfl, fun mid now rest hms =>
      h (.check n :: mid) now rest (by rw [hms]; rfl)⟩
  · rintro ⟨hn, h⟩ mid now rest hms
    cases mid with
    | nil => cases hms; exact hn
    | cons m mid => cases hms; exact h mid now rest rfl

theorem eachCheck_of_times (h : ∀ now ∈ times ms, ∀ mid, q mid now) : EachCheck q ms := by
  intro mid now rest hms
  refine h now ?_ mid
  rw [hms]
  simp [times]

end Moment

namespace Circuit

open Moment

def after (c : Circuit) (x : Context) : List Moment → Context
  | [] => x
  | .failure f :: ms => c.after (x.fail f) ms
  | .check now :: ms => c.after (c.check x now).context ms

/-- The checks: when they were made, and whether they found the circuit open. -/
def answers (c : Circuit) (x : Context) : List Moment → List (Nat × Bool)
  | [] => []
  | .failure f :: ms => c.answers (x.fail f) ms
  | .check now :: ms => (now, !(c.check x now).allowed) :: c.answers (c.check x now).context ms

variable {c : Circuit} {x y : Context} {t now : Nat}

/-- The flag is the latest answer. -/
theorem isOpen_after (c : Circuit) (x : Context) (ms : List Moment) :
    (c.after x ms).isOpen = ((c.answers x ms).getLast?.map (·.2)).getD x.isOpen := by
  induction ms generalizing x with
  | nil => rfl
  | cons m ms ih =>
    cases m with
    | failure f => exact ih (x.fail f)
    | check now =>
      have hflag := (c.check_settled x now).2
      rw [after, answers, ih, List.getLast?_cons]
      cases (c.answers (c.check x now).context ms).getLast? with
      | none => simpa using hflag
      | some a => rfl

theorem time_of_answer {ms : List Moment} {e : Nat × Bool} (h : e ∈ c.answers x ms) :
    e.1 ∈ times ms := by
  induction ms generalizing x with
  | nil => cases h
  | cons m ms ih =>
    cases m with
    | failure f => exact ih h
    | check n =>
      rcases List.mem_cons.mp h with rfl | h
      · exact .head _
      · exact .tail _ (ih h)

/-- A closed circuit opens only where the limit refuses, and its window then begins. -/
theorem check_opening (ho : x.isOpen = false) (h : (c.check x now).allowed = false) :
    c.attempts.allows x = false ∧
      (c.check x now).context = { x with started := now, isOpen := true } := by
  have hcheck := c.checked x now
  generalize c.check x now = check at h hcheck ⊢
  cases hcheck with
  | opens ha => exact ⟨ha, rfl⟩
  | staysOpen _ hopen => cases ho.symm.trans hopen
  | inWindow | pastWindow | closes | spreadOut => cases h

/-- Within the reset timeout an open circuit answers as the limit does. -/
theorem check_open (ho : x.isOpen = true) (ht : ¬ age x now > c.resetTimeout) :
    (c.check x now).allowed = c.attempts.allows x ∧
      (c.attempts.allows x = false → (c.check x now).context = x) := by
  have hcheck := c.checked x now
  generalize c.check x now = check at hcheck ⊢
  cases hcheck with
  | inWindow ha | pastWindow ha => exact ⟨ha.symm, fun hno => by cases ha.symm.trans hno⟩
  | staysOpen ha => exact ⟨ha.symm, fun _ => rfl⟩
  | closes _ _ hlate => exact absurd hlate ht
  | opens _ hclosed | spreadOut _ hclosed => cases hclosed.symm.trans ho

/-- An open circuit answers so for its reset timeout, if and only if the limit refuses at each check
in that time what has been counted by then. -/
theorem open_iff {ms : List Moment} (ho : x.isOpen = true) (ht : x.started = t)
    (hsorted : (times ms).Pairwise (· ≤ ·)) :
    (∀ e ∈ c.answers x ms, Duration.ofMillis (e.1 - t) ≤ c.resetTimeout → e.2 = true) ↔
      EachCheck (fun mid now => Duration.ofMillis (now - t) ≤ c.resetTimeout →
        c.attempts.allows ((failures mid).foldl Context.fail x) = false) ms := by
  induction ms generalizing x with
  | nil => exact ⟨fun _ => eachCheck_nil, fun _ e he => by cases he⟩
  | cons m ms ih =>
    cases m with
    | failure f =>
      rw [answers, ih (x := x.fail f) ho ht hsorted, eachCheck_failure]
      exact Iff.rfl
    | check n =>
      obtain ⟨hfirst, hrest⟩ := List.pairwise_cons.mp (show (n :: times ms).Pairwise _ from hsorted)
      by_cases hn : Duration.ofMillis (n - t) ≤ c.resetTimeout
      · have hage : ¬ age x n > c.resetTimeout := by
          unfold age; rw [ht]; exact Duration.not_lt.mpr hn
        obtain ⟨hanswer, hsame⟩ := check_open ho hage
        rw [answers, List.forall_mem_cons, eachCheck_check, hanswer]
        cases ha : c.attempts.allows x with
        | false =>
          rw [hsame ha, ih ho ht hrest]
          exact and_congr ⟨fun _ _ => ha, fun _ _ => rfl⟩ Iff.rfl
        | true =>
          constructor
          · rintro ⟨h, -⟩; cases h hn
          · rintro ⟨h, -⟩; exact absurd (ha.symm.trans (h hn)) nofun
      · -- a check after the reset timeout is followed only by such checks
        have hlate : ∀ now ∈ times (.check n :: ms),
            ¬ Duration.ofMillis (now - t) ≤ c.resetTimeout := by
          intro now hnow hin
          have hle : n ≤ now := by
            rcases List.mem_cons.mp hnow with rfl | h
            · exact Nat.le_refl _
            · exact hfirst now h
          exact hn (Duration.le_trans (Duration.ofMillis_le_ofMillis (by omega)) hin)
        constructor
        · intro _
          exact eachCheck_of_times fun now hnow _ hin => absurd hin (hlate now hnow)
        · intro _ e he hin
          exact absurd hin (hlate e.1 (time_of_answer he))

theorem counted (fs : List Failure) (x : Context) :
    (fs.foldl Context.fail x).attempts = x.attempts + fs.length ∧
      (fs.foldl Context.fail x).last = fs.getLast?.or x.last := by
  induction fs generalizing x with
  | nil => exact ⟨rfl, rfl⟩
  | cons f fs ih =>
    obtain ⟨ha, hl⟩ := ih (x.fail f)
    rw [List.foldl_cons, ha, hl, List.getLast?_cons]
    refine ⟨by simp [Context.fail]; omega, ?_⟩
    cases fs.getLast? <;> rfl

/-- What a limit refuses it still refuses after more failures, unless the last of them is worth an
attempt and one is left. -/
theorem refuses_counted {p : AttemptLimit} (hx : p.allows x = false) (fs : List Failure) :
    p.allows (fs.foldl Context.fail x) = false ↔
      ∀ f, fs.getLast? = some f → p.retries f = true → p.limit ≤ x.attempts + fs.length := by
  obtain ⟨ha, hl⟩ := counted fs x
  cases hf : fs.getLast? with
  | none =>
    rw [List.getLast?_eq_none_iff.mp hf]
    exact ⟨fun _ _ h => (by cases h), fun _ => hx⟩
  | some f =>
    rw [hf] at hl
    rw [p.allows_failed hl, ha, Bool.and_eq_false_iff, decide_eq_false_iff_not, Nat.not_lt]
    constructor
    · rintro (h | h) g hg hr
      · cases hg; rw [h] at hr; cases hr
      · exact h
    · intro h
      cases hr : p.retries f with
      | false => exact .inl rfl
      | true => exact .inr (h f rfl hr)

theorem after_append (c : Circuit) (x : Context) (ms ns : List Moment) :
    c.after x (ms ++ ns) = c.after (c.after x ms) ns := by
  induction ms generalizing x with
  | nil => rfl
  | cons m ms ih => cases m <;> exact ih _

theorem answers_append (c : Circuit) (x : Context) (ms ns : List Moment) :
    c.answers x (ms ++ ns) = c.answers x ms ++ c.answers (c.after x ms) ns := by
  induction ms generalizing x with
  | nil => rfl
  | cons m ms ih =>
    cases m with
    | failure f => exact ih _
    | check n => exact congrArg (_ :: ·) (ih _)

/-- **When an open circuit stays open.** Opened at `t`, a circuit is open at every later check in
its reset timeout if and only if no such check comes upon failures, counted since, of which the last
is worth another attempt and which do not use the attempts up. -/
theorem stays_open_iff (c : Circuit) (created : Nat) {before later : List Moment}
    (hclosed : ∀ e, (c.answers (Context.fresh created) before).getLast? = some e → e.2 = false)
    (hopens : (c.answers (Context.fresh created) (before ++ [.check t])).getLast? = some (t, true))
    (hsorted : (times later).Pairwise (· ≤ ·)) :
    (∀ e ∈ c.answers (c.after (Context.fresh created) (before ++ [.check t])) later,
        Duration.ofMillis (e.1 - t) ≤ c.resetTimeout → e.2 = true) ↔
      EachCheck (fun mid now => Duration.ofMillis (now - t) ≤ c.resetTimeout →
        ∀ f, (failures mid).getLast? = some f → c.attempts.retries f = true → c.attempts.limit ≤
          (c.after (Context.fresh created) before).attempts + (failures mid).length) later := by
  have hflag := c.isOpen_after (Context.fresh created) before
  rw [answers_append] at hopens
  rw [after_append]
  generalize c.after (Context.fresh created) before = x at hflag hopens ⊢
  have ho : x.isOpen = false := by
    rw [hflag]
    cases hlast : (c.answers (Context.fresh created) before).getLast? with
    | none => rfl
    | some e => exact hclosed e hlast
  have hno : (c.check x t).allowed = false := by
    simpa [answers] using hopens
  obtain ⟨hrefuses, hcontext⟩ := check_opening ho hno
  have hopened : c.after x [.check t] = { x with started := t, isOpen := true } := hcontext
  rw [hopened, open_iff rfl rfl hsorted]
  have hcounted := fun mid => refuses_counted (p := c.attempts)
    (x := { x with started := t, isOpen := true }) hrefuses (failures mid)
  exact forall_congr' fun mid => forall_congr' fun now => forall_congr' fun rest =>
    imp_congr_right fun _ => imp_congr_right fun _ => hcounted mid

/-- A failure worth another attempt. -/
def late : Failure := ⟨⟨.root "Timeout" "Timeout", "late"⟩, []⟩

/-- A failure that opens a circuit at once where only `late` is retried. -/
def foreign : Failure := ⟨⟨.root "Rejected" "Rejected", "not ours"⟩, []⟩

/-- Three attempts, for timeouts only. -/
def picky : Circuit :=
  ⟨⟨3, .ofLists [late.kind] [], by decide⟩, Duration.ofMillis 5000, Duration.ofMillis 20000,
    "inventory"⟩

theorem stays_open_iff_picky :
    (∀ e ∈ picky.answers (picky.after (Context.fresh 0)
          ([.check 0, .check 0, .failure foreign] ++ [.check 100])) [.failure late, .check 200],
        Duration.ofMillis (e.1 - 100) ≤ picky.resetTimeout → e.2 = true) ↔
      EachCheck (fun mid now => Duration.ofMillis (now - 100) ≤ picky.resetTimeout →
        ∀ f, (failures mid).getLast? = some f → picky.attempts.retries f = true →
          picky.attempts.limit ≤ (picky.after (Context.fresh 0)
            [.check 0, .check 0, .failure foreign]).attempts + (failures mid).length)
        [.failure late, .check 200] :=
  picky.stays_open_iff 0 (by decide) (by decide) (by decide)

/-- The circuit opens at 100, and is found closed at 200. -/
theorem late_failure_closes :
    picky.answers (Context.fresh 0) [.check 0, .check 0, .failure foreign, .check 100,
        .failure late, .check 200] = [(0, false), (0, false), (100, true), (200, false)] ∧
      Duration.ofMillis (200 - 100) ≤ picky.resetTimeout := by decide

end Circuit

end CallGuard
