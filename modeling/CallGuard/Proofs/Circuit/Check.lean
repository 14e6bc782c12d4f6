import CallGuard.Policy
/-! # What a check makes of a context

Six things can come of checking a circuit, told apart by whether the attempt limit allows another
attempt, by the flag, and by the age of the window (`Checked`). After each of them the flag says
what the attempt limit says of the context that is left, and a second check at the same time has
nothing to do (`check_twice`). A policy that refuses leaves a failure behind, because an attempt
limit is positive. -/

namespace CallGuard

namespace Context

/-- No failure is kept exactly where none is counted. -/
def Coherent (c : Context) : Prop := c.last = none ↔ c.attempts = 0

theorem coherent_fresh (now : Nat) : (fresh now).Coherent := by simp [Coherent, fresh]

theorem coherent_restart (c : Context) (now : Nat) : (c.restart now).Coherent := by
  simp [Coherent, restart]

theorem coherent_fail (c : Context) (f : Failure) : (c.fail f).Coherent := by
  simp [Coherent, fail]

end Context

namespace AttemptLimit

theorem allows_iff {p : AttemptLimit} {c : Context} :
    p.allows c = true ↔ (∀ f, c.last = some f → p.retries f = true) ∧ c.attempts < p.limit := by
  unfold allows
  cases c.last <;> simp

theorem allows_unfailed (p : AttemptLimit) {c : Context} (hl : c.last = none)
    (ha : c.attempts = 0) : p.allows c = true := by
  refine allows_iff.mpr ⟨fun f hf => ?_, ha ▸ p.limit_pos⟩
  rw [hl] at hf; cases hf

theorem allows_failed (p : AttemptLimit) {c : Context} {f : Failure} (hl : c.last = some f) :
    p.allows c = (p.retries f && decide (c.attempts < p.limit)) := by
  simp [allows, hl]

/-- Any failure is retried, so many times. -/
def retrying (n : Nat) : AttemptLimit := ⟨n + 1, .retryAll, Nat.succ_pos n⟩

/-- What a limit refuses has failed. -/
theorem failed_of_refused {p : AttemptLimit} {c : Context} (hc : c.Coherent)
    (h : p.allows c = false) : ∃ f, c.last = some f := by
  cases hl : c.last with
  | some f => exact ⟨f, rfl⟩
  | none => rw [p.allows_unfailed hl (hc.mp hl)] at h; cases h

end AttemptLimit

namespace Circuit

variable {c : Circuit} {x : Context} {now : Nat}

def age (x : Context) (now : Nat) : Duration := Duration.ofMillis (now - x.started)

theorem allows_restart (p : AttemptLimit) (x : Context) (now : Nat) :
    p.allows (x.restart now) = true := p.allows_unfailed rfl rfl

/-! ## The six cases -/

theorem check_in_window (ha : c.attempts.allows x = true) (ht : ¬ age x now > c.openTimeout) :
    c.check x now = ⟨true, { x with isOpen := false }, []⟩ := by
  unfold age at ht
  simp [check, ha, ht]

theorem check_past_window (ha : c.attempts.allows x = true) (ht : age x now > c.openTimeout) :
    c.check x now = ⟨true, { x.restart now with isOpen := false }, []⟩ := by
  unfold age at ht
  simp [check, ha, ht]

theorem check_stays_open (ha : c.attempts.allows x = false) (ho : x.isOpen = true)
    (ht : ¬ age x now > c.resetTimeout) : c.check x now = ⟨false, x, []⟩ := by
  unfold age at ht
  cases x
  simp_all [check]

theorem check_closes (ha : c.attempts.allows x = false) (ho : x.isOpen = true)
    (ht : age x now > c.resetTimeout) :
    c.check x now = ⟨true, { x.restart now with isOpen := false }, [.circuitCloses c.label]⟩ := by
  unfold age at ht
  simp [check, ha, ho, ht, allows_restart]

theorem check_opens (ha : c.attempts.allows x = false) (ho : x.isOpen = false)
    (ht : age x now < c.openTimeout) :
    c.check x now = ⟨false, { x with started := now, isOpen := true },
      [.circuitOpens c.label x.attempts]⟩ := by
  unfold age at ht
  simp [check, ha, ho, ht]

theorem check_spread_out (ha : c.attempts.allows x = false) (ho : x.isOpen = false)
    (ht : ¬ age x now < c.openTimeout) :
    c.check x now = ⟨true, { x.restart now with isOpen := false }, []⟩ := by
  unfold age at ht
  simp [check, ha, ho, ht, allows_restart]

/-- The same as one statement: what can come of a check, and when. -/
inductive Checked (c : Circuit) (x : Context) (now : Nat) : CallGuard.Check → Prop
  | inWindow : c.attempts.allows x = true → ¬ age x now > c.openTimeout →
      Checked c x now ⟨true, { x with isOpen := false }, []⟩
  | pastWindow : c.attempts.allows x = true → age x now > c.openTimeout →
      Checked c x now ⟨true, { x.restart now with isOpen := false }, []⟩
  | staysOpen : c.attempts.allows x = false → x.isOpen = true → ¬ age x now > c.resetTimeout →
      Checked c x now ⟨false, x, []⟩
  | closes : c.attempts.allows x = false → x.isOpen = true → age x now > c.resetTimeout →
      Checked c x now
        ⟨true, { x.restart now with isOpen := false }, [.circuitCloses c.label]⟩
  | opens : c.attempts.allows x = false → x.isOpen = false → age x now < c.openTimeout →
      Checked c x now ⟨false, { x with started := now, isOpen := true },
        [.circuitOpens c.label x.attempts]⟩
  | spreadOut : c.attempts.allows x = false → x.isOpen = false → ¬ age x now < c.openTimeout →
      Checked c x now ⟨true, { x.restart now with isOpen := false }, []⟩

theorem checked (c : Circuit) (x : Context) (now : Nat) : c.Checked x now (c.check x now) := by
  cases ha : c.attempts.allows x with
  | true =>
    by_cases ht : age x now > c.openTimeout
    · rw [check_past_window ha ht]; exact .pastWindow ha ht
    · rw [check_in_window ha ht]; exact .inWindow ha ht
  | false =>
    cases ho : x.isOpen with
    | true =>
      by_cases ht : age x now > c.resetTimeout
      · rw [check_closes ha ho ht]; exact .closes ha ho ht
      · rw [check_stays_open ha ho ht]; exact .staysOpen ha ho ht
    | false =>
      by_cases ht : age x now < c.openTimeout
      · rw [check_opens ha ho ht]; exact .opens ha ho ht
      · rw [check_spread_out ha ho ht]; exact .spreadOut ha ho ht

/-! ## What holds in all of them -/

/-- The answer is what the limit says of the context that is left, and the flag its opposite. -/
theorem check_settled (c : Circuit) (x : Context) (now : Nat) :
    (c.check x now).allowed = c.attempts.allows (c.check x now).context ∧
    (c.check x now).context.isOpen = !(c.check x now).allowed := by
  have hcheck := c.checked x now
  generalize c.check x now = check at hcheck ⊢
  cases hcheck with
  | inWindow ha _ => exact ⟨ha.symm, rfl⟩
  | staysOpen ha ho _ => exact ⟨ha.symm, ho⟩
  | opens ha _ _ => exact ⟨ha.symm, rfl⟩
  | pastWindow | closes | spreadOut => exact ⟨(allows_restart c.attempts x now).symm, rfl⟩

theorem check_coherent (c : Circuit) (hx : x.Coherent) (now : Nat) :
    (c.check x now).context.Coherent := by
  have hcheck := c.checked x now
  generalize c.check x now = check at hcheck ⊢
  cases hcheck with
  | inWindow | staysOpen | opens => exact hx
  | pastWindow | closes | spreadOut => exact Context.coherent_restart x now

/-! ## Asked again -/

/-- A check at this time has nothing to do: the flag is right, and what it waits for is not over. -/
structure Rests (c : Circuit) (x : Context) (now : Nat) : Prop where
  flag : x.isOpen = !c.attempts.allows x
  young : ¬ age x now > if x.isOpen then c.resetTimeout else c.openTimeout

theorem Rests.check (h : c.Rests x now) : c.check x now = ⟨c.attempts.allows x, x, []⟩ := by
  have hyoung := h.young
  cases ha : c.attempts.allows x with
  | true =>
    have ho : x.isOpen = false := by simp [h.flag, ha]
    rw [ho, if_neg nofun] at hyoung
    rw [check_in_window ha hyoung, ← ho]
  | false =>
    have ho : x.isOpen = true := by simp [h.flag, ha]
    rw [ho, if_pos rfl] at hyoung
    exact check_stays_open ha ho hyoung

/-- What begins now is not over now. -/
theorem rests_begun (hs : x.started = now) (ho : x.isOpen = !c.attempts.allows x) :
    c.Rests x now where
  flag := ho
  young := by simp [age, hs, Duration.lt_iff]

/-- **A check leaves nothing to do at its time.** It leaves the window alone while its timeout is
not over, and any window that it begins, or time of opening, is the present. -/
theorem check_rests (c : Circuit) (x : Context) (now : Nat) :
    c.Rests (c.check x now).context now := by
  have hrestart : c.Rests { x.restart now with isOpen := false } now :=
    rests_begun rfl (by change false = !c.attempts.allows (x.restart now); rw [allows_restart]; rfl)
  have hcheck := c.checked x now
  generalize c.check x now = check at hcheck ⊢
  cases hcheck with
  | inWindow ha ht => exact ⟨by change false = !c.attempts.allows x; rw [ha]; rfl, ht⟩
  | staysOpen ha ho ht => exact ⟨by rw [ho, ha]; rfl, by rw [ho]; exact ht⟩
  | opens ha _ _ => exact rests_begun rfl (by change true = !c.attempts.allows x; rw [ha]; rfl)
  | pastWindow | closes | spreadOut => exact hrestart

/-- **Asking a circuit twice at one time changes nothing.** The flag is the answer of the check and
the opposite of what the limit says of the context that is left, and a second check gives the same
answer, leaves that context as it is and reports nothing. -/
theorem check_twice (c : Circuit) (x : Context) (now : Nat) :
    (c.check x now).context.isOpen = !(c.check x now).allowed ∧
      (c.check x now).allowed = c.attempts.allows (c.check x now).context ∧
      c.check (c.check x now).context now =
        ⟨(c.check x now).allowed, (c.check x now).context, []⟩ := by
  obtain ⟨hanswer, hflag⟩ := c.check_settled x now
  refine ⟨hflag, hanswer, ?_⟩
  rw [(c.check_rests x now).check, ← hanswer]

end Circuit

namespace Policy

theorem check_coherent (p : Policy) {x : Context} (hx : x.Coherent) (now : Nat) :
    (p.check x now).context.Coherent := by
  cases p with
  | attempts limit => exact hx
  | circuit c => exact c.check_coherent hx now

/-- A policy answers by the attempt limit in it. -/
theorem check_allowed (p : Policy) (x : Context) (now : Nat) :
    (p.check x now).allowed = p.limit.allows (p.check x now).context := by
  cases p with
  | attempts limit => rfl
  | circuit c => exact (c.check_settled x now).1

/-- What a policy refuses has failed. -/
theorem failed_of_refused (p : Policy) {x : Context} (hx : x.Coherent) {now : Nat}
    (h : (p.check x now).allowed = false) : ∃ f, (p.check x now).context.last = some f :=
  AttemptLimit.failed_of_refused (p.check_coherent hx now) (p.check_allowed x now ▸ h)

end Policy

end CallGuard
