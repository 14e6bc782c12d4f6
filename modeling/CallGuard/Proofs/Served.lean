import CallGuard.Proofs.Frames
import CallGuard.Proofs.Stateful
/-! # A call with a key, seen from the context of its key

`Answered` says what one call with a key can come to in terms of the policy and of the context that
it finds; `Served` says in addition what it leaves of that context. Every call is answered so, and
it is served so whatever it does while it is made, as long as it leaves the ledger sound and the key
alone (`stateful_answered`, `stateful_served`); in particular it ends whenever its attempt does.
`stateful_spares` shows that the call leaves every other key alone. -/

namespace CallGuard

variable {ι γ : Type}

/-- The visit as its call sees it: one that sets earlier attempts aside finds none. -/
def Visit.facing (v : Visit) (refresh : Bool) : Visit :=
  { v with found := if refresh then none else v.found }

/-- What the policy answers when a visit asks for an attempt. -/
def Visit.admission (v : Visit) (policy : Policy) : Check :=
  policy.check (v.found.getD (Context.fresh v.begun)) v.asked

/-- What a call with a key can come to, as far as its caller sees. -/
inductive Answered (terms : Terms) (arguments : List Json) (v : Visit) : Prop where
  | full (capacity : Nat) : v.attempts = [] → v.pauses = [] →
      v.result = .error (.contextsFull capacity) → Answered terms arguments v
  /-- The policy refuses, with a failure to tell of. -/
  | refused (last : Failure) : (v.admission terms.policy).allowed = false →
      (v.admission terms.policy).context.last = some last → v.attempts = [] → v.pauses = [] →
      v.result = terms.recovery arguments last
        (terms.refusal (v.admission terms.policy).context.attempts last) →
      Answered terms arguments v
  | attempted (outcome : Except Failure Json) (ended : Nat) :
      (v.admission terms.policy).allowed = true → v.attempts = [⟨[], outcome, ended⟩] →
      v.result = outcome.mapError .failed → Answered terms arguments v

/-- What a call with a key can come to. -/
inductive Served (terms : Terms) (arguments : List Json) (v : Visit) : Prop where
  | full (capacity : Nat) : v.found = none → v.attempts = [] → v.pauses = [] →
      v.result = .error (.contextsFull capacity) → v.left = none → Served terms arguments v
  /-- The policy refuses, with a failure to tell of. -/
  | refused (last : Failure) : (v.admission terms.policy).allowed = false →
      (v.admission terms.policy).context.last = some last → v.attempts = [] → v.pauses = [] →
      v.result = terms.recovery arguments last
        (terms.refusal (v.admission terms.policy).context.attempts last) →
      v.left = (if terms.policy.isShared then some (v.admission terms.policy).context else none) →
      Served terms arguments v
  | succeeded (value : Json) (ended : Nat) : (v.admission terms.policy).allowed = true →
      v.attempts = [⟨[], .ok value, ended⟩] → v.pauses = [] → v.result = .ok value →
      v.left = (if terms.policy.isShared then some (v.admission terms.policy).context else none) →
      Served terms arguments v
  /-- The one attempt fails; what the policy then says decides about a pause. -/
  | failed (f : Failure) (ended : Nat) (words : Words) (after : Check) :
      (v.admission terms.policy).allowed = true → v.attempts = [⟨[], .error f, ended⟩] →
      v.result = .error (.failed f) →
      after = terms.policy.check ((v.admission terms.policy).context.fail f) ended →
      v.left = some after.context →
      v.pauses = (if after.allowed then terms.pausesAfter after.context.attempts words else []) →
      Served terms arguments v

namespace Execution

variable {i : Nat} {terms : Terms} {key : RetryKey} {k : String} {call : Call ι γ}
  {s : Session ι (Notes γ)} {l : Ledger} {events : List Event}

/-- An attempt made for an admitted call, with its note. -/
theorem attempt_returns (hend : call.proceed.Ends) (hg : s.guest.attempts = [])
    (hm : s.guest.mark = s.pauses.size) (l : Ledger) (events : List Event) :
    ∃ outcome t, call.watched.proceed.Returns (asked s i l events) outcome t ∧
      t.guest.attempts = [⟨[], outcome, t.clock.now⟩] ∧ t.guest.mark = t.pauses.size ∧
      (call.proceed.Preserves (fun s => (s.ledgers.get i).Sound) → l.Sound →
        (t.ledgers.get i).Sound) ∧
      ∀ k, call.proceed.Spares i k → l.Sound →
        (t.ledgers.get i).Sound ∧ (t.ledgers.get i).current? k = l.current? k := by
  let start : Session ι γ := (asked s i l events).withGuest s.guest.own
  obtain ⟨outcome, t, ht⟩ := hend start
  have hstart : start.ledgers.get i = l := ledger_asked s i l events
  refine ⟨outcome, _, Call.watched_returns ht, ?_, rfl, fun hsound hl => ?_, fun k hk hl => ?_⟩
  · change s.guest.attempts ++ [⟨s.pauses.toList.drop s.guest.mark, outcome, t.clock.now⟩] = _
    rw [hg, hm, ← Array.length_toList, List.drop_length]
    rfl
  · have := hsound start outcome t ht
    dsimp only at this
    rw [hstart] at this
    exact this hl
  · have := hk start outcome t ht
    rw [hstart] at this
    exact this hl

/-- **What a call with a key comes to.** -/
theorem stateful_answered (terms : Terms) (key : RetryKey) (hs : (s.ledgers.get i).Sound)
    (hg : s.guest.attempts = []) (hm : s.guest.mark = s.pauses.size) (hend : call.proceed.Ends) :
    ∃ result t, (stateful i terms key call.watched).Returns s result t ∧
      Answered terms call.arguments ((Visit.of i key.key s t result).facing key.refresh) ∧
      (call.proceed.Preserves (fun s => (s.ledgers.get i).Sound) → (t.ledgers.get i).Sound) ∧
      (call.proceed.Spares i key.key →
        Served terms call.arguments ((Visit.of i key.key s t result).facing key.refresh)) := by
  have hpages : ∀ {t : Session ι (Notes γ)}, t.guest = s.guest → t.pauses = s.pauses →
      t.pauses.toList.drop t.guest.mark = [] := by
    intro t htg htp
    rw [htg, htp, hm, ← Array.length_toList, List.drop_length]
  rcases Ledger.ask_cases hs terms.policy key.key key.refresh s.clock.now s.clock.read.now with
    ⟨hf, -, ha⟩ | ⟨hno, l, ha, hl, hleft, -⟩ | ⟨hyes, n, l, ha, hl, hcur, -⟩
  · have hsame := ledger_asked s i (s.ledgers.get i) []
    refine ⟨_, _, full_returns ha, .full _ hg (hpages rfl rfl) rfl,
      fun _ => by rw [hsame]; exact hs, fun _ => .full _ ?_ hg (hpages rfl rfl) rfl ?_⟩
    · change (if key.refresh then none else (s.ledgers.get i).get? key.key) = none
      rw [hf]; split <;> rfl
    · change ((asked s i (s.ledgers.get i) []).ledgers.get i).get? key.key = none
      rw [hsame]; exact hf
  · obtain ⟨last, hlast⟩ :=
      terms.policy.failed_of_refused (hs.coherent_found key.key key.refresh _) hno
    obtain ⟨t, ht, htl, htg, htp⟩ := rejected_returns call.watched hlast ha
    have hatt : t.guest.attempts = [] := by rw [htg]; exact hg
    refine ⟨_, t, ht, .refused last hno hlast hatt (hpages htg htp) rfl, fun _ => htl ▸ hl,
      fun _ => .refused last hno hlast hatt (hpages htg htp) rfl ?_⟩
    change (t.ledgers.get i).get? key.key = _
    rw [htl]; exact hleft
  · obtain ⟨outcome, t, ht, hta, htm, hsound, hother⟩ := attempt_returns hend hg hm l _
    cases outcome with
    | ok value =>
      obtain ⟨u, hu, hul, hug, hup⟩ := success_returns ha ht
      have hatt : u.guest.attempts = [⟨[], .ok value, t.clock.now⟩] := by rw [hug]; exact hta
      refine ⟨_, u, hu, .attempted (.ok value) _ hyes hatt rfl, fun hc => ?_, fun hspare => ?_⟩
      · rw [hul]; exact (hsound hc hl).release terms.policy key.key
      · obtain ⟨htl, htc⟩ := hother key.key hspare hl
        refine .succeeded value _ hyes hatt ?_ rfl ?_
        · change u.pauses.toList.drop u.guest.mark = []
          rw [hug, hup, htm, ← Array.length_toList, List.drop_length]
        · change (u.ledgers.get i).get? key.key = _
          rw [hul, Ledger.get?_succeed htl (htc.trans hcur)]; rfl
    | error f =>
      obtain ⟨u, hu, hul, hug, hup⟩ := failure_returns ha ht
      have hatt : u.guest.attempts = [⟨[], .error f, t.clock.now⟩] := by rw [hug]; exact hta
      refine ⟨_, u, hu, .attempted (.error f) _ hyes hatt rfl, fun hc => ?_, fun hspare => ?_⟩
      · rw [hul]; exact (hsound hc hl).fail _ _ _ _
      · obtain ⟨htl, htc⟩ := hother key.key hspare hl
        obtain ⟨l', hfail, -, hget⟩ :=
          Ledger.fail_spec htl (htc.trans hcur) terms.policy f t.clock.now
        rw [hfail] at hul hup
        refine .failed f _ t.words _ hyes hatt rfl rfl ?_ ?_
        · change (u.ledgers.get i).get? key.key = _
          rw [hul]; exact hget
        · change u.pauses.toList.drop u.guest.mark = _
          rw [hug, hup, htm, ← Array.length_toList, List.drop_left]
          rfl

/-- **A call with a key is served by the context of its key.** -/
theorem stateful_served (terms : Terms) (key : RetryKey) (hs : (s.ledgers.get i).Sound)
    (hg : s.guest.attempts = []) (hm : s.guest.mark = s.pauses.size) (hend : call.proceed.Ends)
    (hspare : call.proceed.Spares i key.key) :
    ∃ result t, (stateful i terms key call.watched).Returns s result t ∧
      Served terms call.arguments ((Visit.of i key.key s t result).facing key.refresh) ∧
      (t.ledgers.get i).Sound := by
  obtain ⟨result, t, ht, -, hsound, hserved⟩ := stateful_answered terms key hs hg hm hend
  exact ⟨result, t, ht, hserved hspare, hsound fun s a t ht hs => (hspare s a t ht hs).1⟩

/-- A call is turned away only where the ledger is full. -/
theorem stateful_housed {γ : Type} {call : Call ι γ} {s t : Session ι γ} {result : Result}
    (hs : (s.ledgers.get i).Sound) (hend : call.proceed.Ends)
    (hroom : (s.ledgers.get i).live.isFull = false)
    (ht : (stateful i terms key call).Returns s result t) (capacity : Nat) :
    result ≠ .error (.contextsFull capacity) := by
  rcases Ledger.ask_cases hs terms.policy key.key key.refresh s.clock.now s.clock.read.now with
    ⟨-, hfull, -⟩ | ⟨hno, l, ha, -⟩ | ⟨-, n, l, ha, -⟩
  · rw [hroom] at hfull; cases hfull
  · obtain ⟨last, hlast⟩ :=
      terms.policy.failed_of_refused (hs.coherent_found key.key key.refresh _) hno
    obtain ⟨u, hu, -⟩ := rejected_returns call hlast ha
    obtain ⟨rfl, -⟩ := ht.unique hu
    exact terms.recovery_housed _ _ _ _
  · obtain ⟨outcome, u, hu⟩ := hend (asked s i l _)
    cases outcome with
    | ok value =>
      obtain ⟨w, hw, -⟩ := success_returns ha hu
      obtain ⟨rfl, -⟩ := ht.unique hw
      nofun
    | error f =>
      obtain ⟨w, hw, -⟩ := failure_returns ha hu
      obtain ⟨rfl, -⟩ := ht.unique hw
      nofun

/-- A call under one key leaves another alone, if it does so while it is made. -/
theorem stateful_spares {γ : Type} {call : Call ι γ} (terms : Terms) (key : RetryKey)
    (hk : k ≠ key.key) (hend : call.proceed.Ends) (hspare : call.proceed.Spares i k) :
    (stateful i terms key call).Spares i k := by
  intro s result t ht hs
  rcases Ledger.ask_cases hs terms.policy key.key key.refresh s.clock.now s.clock.read.now with
    ⟨-, -, ha⟩ | ⟨hno, l, ha, hl, -, helse⟩ | ⟨-, n, l, ha, hl, hcur, helse⟩
  · obtain ⟨-, rfl⟩ := ht.unique (full_returns ha)
    rw [ledger_asked]
    exact ⟨hs, rfl⟩
  · obtain ⟨last, hlast⟩ :=
      terms.policy.failed_of_refused (hs.coherent_found key.key key.refresh _) hno
    obtain ⟨u, hu, hul, -⟩ := rejected_returns call hlast ha
    obtain ⟨-, rfl⟩ := ht.unique hu
    rw [hul]
    exact ⟨hl, helse k hk⟩
  · obtain ⟨outcome, u, hu⟩ := hend (asked s i l _)
    obtain ⟨hul, huc⟩ := hspare _ outcome u hu (by rw [ledger_asked]; exact hl)
    rw [ledger_asked] at huc
    have hlk : l.live.get? k ≠ some n := fun h =>
      hk (hl.apart h (Ledger.current?_eq_some.mp hcur).1)
    have huk : (u.ledgers.get i).live.get? k ≠ some n := by
      rw [hl.live_congr hul huc]; exact hlk
    have hsame := huc.trans (helse k hk)
    cases outcome with
    | ok value =>
      obtain ⟨w, hw, hwl, -⟩ := success_returns ha hu
      obtain ⟨-, rfl⟩ := ht.unique hw
      rw [hwl]
      exact ⟨hul.release _ _, (Ledger.release_elsewhere _ _ _ k hk).trans hsame⟩
    | error f =>
      obtain ⟨w, hw, hwl, -⟩ := failure_returns ha hu
      obtain ⟨-, rfl⟩ := ht.unique hw
      rw [hwl]
      exact ⟨hul.fail _ _ _ _, (Ledger.fail_elsewhere huk _ _ _).trans hsame⟩

end Execution

end CallGuard
