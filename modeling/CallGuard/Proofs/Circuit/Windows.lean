import CallGuard.Proofs.Repeated
import CallGuard.Proofs.Unkeyed
import Mathlib.Data.List.Chain
/-! # How many attempts a call without a key makes

An attempt limit is to bound the attempts of one call. It does so under a policy that is an attempt
limit. A circuit may begin a new window at any check, and then counts from nothing: there the limit
bounds the attempts of one window. A window lasts for the open timeout at least, so a call keeps to
the limit unless its attempts take that long (`attempts_within_windows`); a call that fails slowly
makes more of them (`slow_failure_exceeds`). -/

namespace CallGuard

variable {ι γ : Type}

namespace Policy

/-- When the policy began new windows, if these attempts are counted from a context on. A window
begins with no attempt counted. -/
def windows (p : Policy) : Context → List Attempt → List Nat
  | _, [] => []
  | x, a :: later =>
    match a.outcome with
    | .ok _ => []
    | .error f =>
      let left := (p.check (x.fail f) a.ended).context
      if left.attempts = 0 then a.ended :: p.windows left later else p.windows left later

variable {p : Policy} {x y : Context} {a : Attempt} {f : Failure} {failed : List Attempt}
  {now : Nat}

theorem windows_counted (hf : a.outcome = .error f)
    (h : (p.check (x.fail f) a.ended).context.attempts ≠ 0) (later : List Attempt) :
    p.windows x (a :: later) = p.windows (p.check (x.fail f) a.ended).context later := by
  simp [windows, hf, h]

theorem windows_renewed (hf : a.outcome = .error f)
    (h : (p.check (x.fail f) a.ended).context.attempts = 0) (later : List Attempt) :
    p.windows x (a :: later) = a.ended :: p.windows (p.check (x.fail f) a.ended).context later := by
  simp [windows, hf, h]

/-- A window begins when an attempt is over. -/
theorem ended_of_windows {attempts : List Attempt} {w : Nat} (h : w ∈ p.windows x attempts) :
    ∃ a ∈ attempts, a.ended = w := by
  induction attempts generalizing x with
  | nil => cases h
  | cons a later ih =>
    rw [windows] at h
    split at h
    · cases h
    · dsimp only at h
      split at h
      · rcases List.mem_cons.mp h with rfl | h
        · exact ⟨a, .head _, rfl⟩
        · obtain ⟨b, hb, hw⟩ := ih h
          exact ⟨b, .tail _ hb, hw⟩
      · obtain ⟨b, hb, hw⟩ := ih h
        exact ⟨b, .tail _ hb, hw⟩

/-- An attempt limit has no windows. -/
theorem windows_attempts (limit : AttemptLimit) (x : Context) (attempts : List Attempt) :
    (Policy.attempts limit).windows x attempts = [] := by
  induction attempts generalizing x with
  | nil => rfl
  | cons a later ih =>
    cases ha : a.outcome with
    | ok value => simp [windows, ha]
    | error f =>
      have hcount : ((Policy.attempts limit).check (x.fail f) a.ended).context.attempts ≠ 0 :=
        Nat.succ_ne_zero _
      rw [windows_counted ha hcount]
      exact ih _

/-! ## One failure -/

/-- A failure that another attempt follows is counted in the window, or begins a new one after the
open timeout. -/
theorem check_failure (ho : x.isOpen = false)
    (hyes : (p.check (x.fail f) now).allowed = true) :
    (p.check (x.fail f) now).context.isOpen = false ∧
    ((p.check (x.fail f) now).context.attempts = x.attempts + 1 ∧
        (p.check (x.fail f) now).context.started = x.started ∨
      (p.check (x.fail f) now).context.attempts = 0 ∧
        (p.check (x.fail f) now).context.started = now ∧
        ∀ c, p = .circuit c → c.openTimeout ≤ Duration.ofMillis (now - x.started)) := by
  cases p with
  | attempts limit => exact ⟨ho, .inl ⟨rfl, rfl⟩⟩
  | circuit c =>
    have hcheck := c.checked (x.fail f) now
    simp only [check] at hyes ⊢
    generalize c.check (x.fail f) now = check at hyes hcheck ⊢
    cases hcheck with
    | inWindow => exact ⟨rfl, .inl ⟨rfl, rfl⟩⟩
    | pastWindow _ ht =>
      refine ⟨rfl, .inr ⟨rfl, rfl, ?_⟩⟩
      rintro _ ⟨⟩
      exact Nat.le_of_lt ht
    | spreadOut _ _ ht =>
      refine ⟨rfl, .inr ⟨rfl, rfl, ?_⟩⟩
      rintro _ ⟨⟩
      exact Duration.not_lt.mp ht
    | closes _ hopen => cases ho.symm.trans hopen
    | staysOpen | opens => cases hyes

/-- After its open timeout a closed circuit refuses nothing. -/
theorem allowed_of_late {c : Circuit} (ho : x.isOpen = false)
    (hlate : c.openTimeout ≤ Circuit.age x now) :
    ((Policy.circuit c).check x now).allowed = true := by
  have hcheck := c.checked x now
  change (c.check x now).allowed = true
  generalize c.check x now = check at hcheck ⊢
  cases hcheck with
  | inWindow | pastWindow | closes | spreadOut => rfl
  | staysOpen _ hopen => cases ho.symm.trans hopen
  | opens _ _ ht => exact absurd ht (Duration.not_lt.mpr hlate)

/-- What a policy allows has an attempt left. -/
theorem lt_limit_of_allowed (h : (p.check x now).allowed = true) :
    (p.check x now).context.attempts < p.limit.limit :=
  (AttemptLimit.allows_iff.mp (p.check_allowed x now ▸ h)).2

/-! ## All failures that others followed -/

theorem Retried.closed (h : p.Retried x failed y) (ho : x.isOpen = false) : y.isOpen = false := by
  induction h with
  | nil x => exact ho
  | cons _ hyes _ ih => exact ih (check_failure ho hyes).1

/-- Each window has room for as many attempts as the limit says. -/
theorem Retried.counted (h : p.Retried x failed y) (ho : x.isOpen = false)
    (hx : x.attempts < p.limit.limit) :
    failed.length + x.attempts ≤ p.limit.limit * (p.windows x failed).length + y.attempts ∧
      y.attempts < p.limit.limit := by
  induction h with
  | nil x => exact ⟨by simp [windows], hx⟩
  | @cons x y a f later hf hyes _ ih =>
    obtain ⟨hclosed, hcase⟩ := check_failure ho hyes
    obtain ⟨hle, hy⟩ := ih hclosed (lt_limit_of_allowed hyes)
    refine ⟨?_, hy⟩
    rcases hcase with ⟨hcount, -⟩ | ⟨hnone, -, -⟩
    · rw [windows_counted hf (by omega), List.length_cons]
      omega
    · rw [windows_renewed hf hnone, List.length_cons, List.length_cons, Nat.mul_succ]
      omega

/-- Windows last for the open timeout at least. -/
theorem Retried.spaced {c : Circuit} (h : (Policy.circuit c).Retried x failed y)
    (ho : x.isOpen = false) :
    (x.started :: (Policy.circuit c).windows x failed).IsChain
      fun a b => c.openTimeout ≤ Duration.ofMillis (b - a) := by
  induction h with
  | nil x => exact .singleton _
  | @cons x y a f later hf hyes _ ih =>
    obtain ⟨hclosed, hcase⟩ := check_failure ho hyes
    have hlater := ih hclosed
    rcases hcase with ⟨hcount, hsame⟩ | ⟨hnone, hnew, hlate⟩
    · rw [windows_counted hf (by omega), ← hsame]
      exact hlater
    · rw [hnew] at hlater
      rw [windows_renewed hf hnone]
      exact .cons_cons (hlate c rfl) hlater

/-- A policy without windows allows fewer failures than the limit. -/
theorem Retried.unwindowed (h : p.Retried x failed y) (ho : x.isOpen = false)
    (hx : x.attempts = 0) (hnone : p.windows x failed = []) : failed.length < p.limit.limit := by
  obtain ⟨hle, hy⟩ := h.counted ho (by rw [hx]; exact p.limit.limit_pos)
  rw [hnone, List.length_nil, Nat.mul_zero] at hle
  omega

/-- No window begins with a failure that no attempt follows. -/
theorem windows_refused (hf : a.outcome = .error f)
    (hno : (p.check (x.fail f) a.ended).allowed = false) : p.windows x [a] = [] := by
  have hkept := (kept_of_refused hno).2
  rw [windows_counted hf (by rw [hkept]; exact Nat.succ_ne_zero _)]
  rfl

theorem Retried.windows_append (h : p.Retried x failed y) (later : List Attempt) :
    p.windows x (failed ++ later) = p.windows x failed ++ p.windows y later := by
  induction h with
  | nil x => rfl
  | @cons x y a f rest hf _ _ ih =>
    rw [List.cons_append]
    by_cases hnone : (p.check (x.fail f) a.ended).context.attempts = 0
    · rw [windows_renewed hf hnone, windows_renewed hf hnone, ih, List.cons_append]
    · rw [windows_counted hf hnone, windows_counted hf hnone, ih]

/-! ## All attempts -/

/-- Attempts that a call can make: those that others followed, and at most one more, which begins no
window. -/
inductive Made (p : Policy) (x : Context) : List Attempt → Prop
  | made {y : Context} {failed rest : List Attempt} : p.Retried x failed y → rest.length ≤ 1 →
      p.windows y rest = [] → Made p x (failed ++ rest)

namespace Made

variable {attempts : List Attempt}

theorem within (h : p.Made x attempts) (ho : x.isOpen = false) (hx : x.attempts = 0) :
    attempts.length ≤ p.limit.limit * ((p.windows x attempts).length + 1) := by
  obtain ⟨hretried, hone, hnone⟩ := h
  obtain ⟨hle, hy⟩ := hretried.counted ho (by rw [hx]; exact p.limit.limit_pos)
  rw [hretried.windows_append, hnone, List.append_nil, List.length_append, Nat.mul_succ]
  omega

/-- Without a window, the limit is kept. -/
theorem le_limit (h : p.Made x attempts) (ho : x.isOpen = false) (hx : x.attempts = 0)
    (hnone : p.windows x attempts = []) : attempts.length ≤ p.limit.limit := by
  have := h.within ho hx
  rwa [hnone, List.length_nil, Nat.zero_add, Nat.mul_one] at this

/-- If the limit is not kept, one of the first attempts has begun a window. -/
theorem window_of_lt (h : p.Made x attempts) (ho : x.isOpen = false) (hx : x.attempts = 0)
    (hmore : p.limit.limit < attempts.length) :
    p.windows x (attempts.take p.limit.limit) ≠ [] := by
  intro hnone
  obtain @⟨y, failed, rest, hretried, hone, -⟩ := h
  have hfailed : p.limit.limit ≤ failed.length := by
    rw [List.length_append] at hmore
    omega
  rw [List.take_append_of_le_length hfailed] at hnone
  obtain ⟨z, hfirst⟩ := hretried.take p.limit.limit
  have hfewer := hfirst.unwindowed ho hx hnone
  rw [List.length_take_of_le hfailed] at hfewer
  exact Nat.lt_irrefl _ hfewer

theorem spaced {c : Circuit} (h : (Policy.circuit c).Made x attempts) (ho : x.isOpen = false) :
    (x.started :: (Policy.circuit c).windows x attempts).IsChain
      fun a b => c.openTimeout ≤ Duration.ofMillis (b - a) := by
  obtain ⟨hretried, -, hnone⟩ := h
  rw [hretried.windows_append, hnone, List.append_nil]
  exact hretried.spaced ho

/-- Attempts that are over before the open timeout begin no window. -/
theorem unwindowed {c : Circuit} (h : (Policy.circuit c).Made x attempts) (ho : x.isOpen = false)
    (hquick : ∀ a ∈ attempts, Duration.ofMillis (a.ended - x.started) < c.openTimeout) :
    (Policy.circuit c).windows x attempts = [] := by
  have hchain := h.spaced ho
  cases hw : (Policy.circuit c).windows x attempts with
  | nil => rfl
  | cons w later =>
    rw [hw] at hchain
    obtain ⟨a, ha, rfl⟩ := ended_of_windows (hw ▸ List.mem_cons_self : w ∈ _)
    exact absurd (hquick a ha) (Duration.not_lt.mpr hchain.rel)

end Made

end Policy

/-! ## The attempts of a call -/

namespace Execution

open Policy

variable {terms : Terms} {call : Call ι γ} {i : Nat}

/-- A call makes such attempts, and ends unless it has used up its rounds. An attempt limit has
rounds for all that it allows. -/
theorem stateless_made (terms : Terms) (hend : call.proceed.Ends) (patience : Nat)
    (s : Session ι γ) :
    ∃ attempts t, terms.policy.Made (Context.fresh s.clock.now) attempts ∧
      Turns call s attempts t ∧
      ((∃ result, (stateless patience terms call).Returns s result t) ∨
        terms.policy.isShared = true ∧ attempts.length = patience ∧
          (stateless patience terms call).run s = none) := by
  obtain ⟨failed, y, hretried, hcourse⟩ := stateless_course terms call patience s
  unfold Action.Returns
  generalize (stateless patience terms call).run s = stop at hcourse ⊢
  cases hcourse with
  | @outlasted t hlength hturns =>
    refine ⟨failed ++ [], t, .made hretried (Nat.zero_le 1) rfl, by rwa [List.append_nil], .inr ?_⟩
    rw [List.append_nil]
    cases hp : terms.policy with
    | circuit c => exact ⟨rfl, by rw [hlength, hp]; rfl, rfl⟩
    | attempts limit =>
      rw [hp] at hlength hretried
      have hfewer := hretried.unwindowed rfl rfl (windows_attempts limit _ _)
      exact absurd hlength (Nat.ne_of_lt hfewer)
  | @stuck t u ps _ _ hnone =>
    obtain ⟨outcome, v, hv⟩ := hend u
    cases hnone.symm.trans hv
  | @succeeded t a value hvalue hturns =>
    exact ⟨failed ++ [a], t, .made hretried (Nat.le_refl 1) (by simp [windows, hvalue]), hturns,
      .inl ⟨_, rfl⟩⟩
  | @gaveUp t a f hf hno hturns =>
    exact ⟨failed ++ [a], t, .made hretried (Nat.le_refl 1) (windows_refused hf hno), hturns,
      .inl ⟨_, rfl⟩⟩

/-- **A call without a key makes at most so many attempts in a window.** An attempt limit has no
windows and bounds the attempts of the call. A circuit bounds those of each window, and a window
lasts for its open timeout at least. So there can be more attempts than the limit says only if a
window begins with one of the first of them; then they have taken as long as the open timeout. A
call that takes no end has made as many attempts as there was patience for. -/
theorem attempts_within_windows (he : terms.executor = .attempting i) (hend : call.proceed.Ends)
    (patience : Nat) (s : Session ι γ) :
    let start := Context.fresh s.clock.now
    let limit := terms.policy.limit.limit
    ∃ attempts t, Turns call s attempts t ∧
      ((∃ result, (run patience ⟨terms, none⟩ call).Returns s result t) ∨
        terms.policy.isShared = true ∧ attempts.length = patience ∧
          (run patience ⟨terms, none⟩ call).run s = none) ∧
      (terms.policy.isShared = false → attempts.length ≤ limit) ∧
      attempts.length ≤ limit * ((terms.policy.windows start attempts).length + 1) ∧
      (limit < attempts.length → terms.policy.windows start (attempts.take limit) ≠ []) ∧
      ∀ c, terms.policy = .circuit c →
        ((s.clock.now :: terms.policy.windows start attempts).IsChain fun a b =>
          c.openTimeout ≤ Duration.ofMillis (b - a)) ∧
        ((∀ a ∈ attempts, Duration.ofMillis (a.ended - s.clock.now) < c.openTimeout) →
          attempts.length ≤ limit) := by
  intro start limit
  obtain ⟨attempts, t, hmade, hturns, hstops⟩ := stateless_made terms hend patience s
  rw [run_unkeyed he]
  refine ⟨attempts, t, hturns, hstops, fun hshared => hmade.le_limit rfl rfl ?_,
    hmade.within rfl rfl, hmade.window_of_lt rfl rfl, fun c hc => ⟨?_, fun hquick => ?_⟩⟩
  · cases hp : terms.policy with
    | attempts l => exact windows_attempts l _ _
    | circuit c => rw [hp] at hshared; cases hshared
  · rw [hc] at hmade ⊢
    exact hmade.spaced rfl
  · refine hmade.le_limit rfl rfl ?_
    rw [hc] at hmade ⊢
    exact hmade.unwindowed rfl hquick

/-- **A circuit without an open timeout ends no call that keeps failing.** Each failure begins a new
window or finds an attempt left in its own, so no patience is enough. -/
theorem endless_without_timeout {c : Circuit} (hp : terms.policy = .circuit c)
    (hzero : c.openTimeout = Duration.zero) (he : terms.executor = .attempting i)
    (hfails : ∀ s, ∃ f t, call.proceed.Returns s (.error f) t) (patience : Nat)
    (s : Session ι γ) :
    (run patience ⟨terms, none⟩ call).run s = none ∧
      ∃ attempts t, Turns call s attempts t ∧ attempts.length = patience := by
  rw [run_unkeyed he]
  obtain ⟨failed, y, hretried, hcourse⟩ := stateless_course terms call patience s
  generalize (stateless patience terms call).run s = stop at hcourse ⊢
  cases hcourse with
  | @outlasted t hlength hturns => exact ⟨rfl, failed, t, hturns, by rw [hlength, hp]; rfl⟩
  | @stuck t u ps _ _ hnone =>
    obtain ⟨f, v, hv⟩ := hfails u
    cases hnone.symm.trans hv
  | @succeeded t a value hvalue hturns =>
    obtain ⟨u, v, huv⟩ := hturns.made (List.mem_append_right failed (.head []))
    obtain ⟨f, w, hw⟩ := hfails u
    obtain ⟨hsame, -⟩ := huv.unique hw
    rw [hvalue] at hsame
    cases hsame
  | @gaveUp t a f _ hno _ =>
    have hclosed : (y.fail f).isOpen = false := hretried.closed rfl
    rw [hp, allowed_of_late hclosed (hzero ▸ Nat.zero_le _)] at hno
    cases hno

end Execution

/-! ## A call that fails slowly -/

def hasty : Terms where
  policy := .circuit
    { attempts := .retrying 0
      openTimeout := Duration.ofMillis 1000
      resetTimeout := Duration.ofMillis 20000
      label := "inventory" }
  backoff := .none
  sleeper := .recording
  recoverer := none
  executor := .attempting 0

/-- The call takes two seconds to fail when it is made first. It counts how often it was made. -/
def stumbling : Call Unit Nat where
  method := ⟨"Stock", "count", []⟩
  target := ⟨"Stock", none⟩
  arguments := []
  proceed := fun s => some (hiccup s.guest,
    { s with
      clock := if s.guest = 0 then s.clock.advance (Duration.ofMillis 2000) else s.clock
      guest := s.guest + 1 })

theorem attempts_within_windows_stumbling :
    ∃ attempts t, Turns stumbling (Session.begin 0) attempts t ∧
      (∃ result, (Execution.run 2 ⟨hasty, none⟩ stumbling).Returns (Session.begin 0) result t) ∧
      attempts.length ≤ (hasty.policy.windows (Context.fresh 0) attempts).length + 1 ∧
      (1 < attempts.length → hasty.policy.windows (Context.fresh 0) (attempts.take 1) ≠ []) ∧
      (0 :: hasty.policy.windows (Context.fresh 0) attempts).IsChain fun a b =>
        Duration.ofMillis 1000 ≤ Duration.ofMillis (b - a) := by
  have hend : stumbling.proceed.Ends := fun s => ⟨_, _, rfl⟩
  obtain ⟨attempts, t, hturns, hout, -, hbound, hfirst, hspaced⟩ :=
    Execution.attempts_within_windows (rfl : hasty.executor = .attempting 0) hend 2
      (Session.begin 0)
  refine ⟨attempts, t, hturns, hout.resolve_right ?_, ?_, hfirst, (hspaced _ rfl).1⟩
  · rintro ⟨-, -, hnone⟩
    cases hnone
  · rwa [show hasty.policy.limit.limit = 1 from rfl, Nat.one_mul] at hbound

/-- With one attempt allowed, the call is made a second time: it failed after the open timeout. -/
theorem slow_failure_exceeds :
    hasty.policy.limit.limit = 1 ∧
      ∃ t, (Execution.run 2 ⟨hasty, none⟩ stumbling).Returns (Session.begin 0) (.ok .null) t ∧
        t.guest = 2 := ⟨rfl, _, rfl, rfl⟩

end CallGuard
