import CallGuard.Proofs.Runs
/-! # What circuits report while calls are guarded

Of all that is reported, the events at the level of information that come from circuits are told
apart by their records. Only checks report such events. A call with a key makes one check when it is
asked for, and another one after a failed attempt; what the two report can be read off its visit
(`Visit.reports`), and a run of visits reports all that in order (`play_told`). -/

namespace CallGuard

variable {ι γ α β : Type}

/-- Whether circuits are the source, and the event is for information. -/
def Event.ofCircuits (e : Event) : Bool :=
  e.record.source == "lifeline::circuit_breaker" && e.record.severity == .info

/-- What circuits have reported so far. -/
def Session.told (s : Session ι γ) : List Event := s.events.toList.filter Event.ofCircuits

theorem Session.told_append (s : Session ι γ) (events : List Event) :
    { s with events := s.events ++ events }.told = s.told ++ events.filter Event.ofCircuits := by
  simp [told]

/-- Checks report nothing else. -/
theorem Policy.filter_check (p : Policy) (x : Context) (now : Nat) :
    (p.check x now).events.filter Event.ofCircuits = (p.check x now).events := by
  refine List.filter_eq_self.mpr fun e he => ?_
  cases p with
  | attempts limit => cases he
  | circuit c =>
    change e ∈ (c.check x now).events at he
    unfold Circuit.check at he
    dsimp only at he
    split at he
    · split at he <;> cases he
    · split at he
      · split at he
        · simp only [List.mem_singleton] at he
          subst he; rfl
        · cases he
      · split at he
        · simp only [List.mem_singleton] at he
          subst he; rfl
        · cases he

namespace Action

/-- No circuit reports anything. -/
def Mute (act : Action ι γ α) : Prop := ∀ es, act.Preserves fun s => s.told = es

theorem Mute.pure (a : α) : Mute (pure a : Action ι γ α) := fun _ => .pure a

theorem Mute.bind {act : Action ι γ α} {next : α → Action ι γ β} (h : act.Mute)
    (hn : ∀ a, (next a).Mute) : (act >>= next).Mute := fun es => (h es).bind fun a => hn a es

theorem Mute.told {act : Action ι γ α} (h : act.Mute) {s t : Session ι γ} {a : α}
    (ht : act.Returns s a t) : t.told = s.told := h _ s a t ht rfl

theorem mute_emit {events : List Event} (h : events.filter Event.ofCircuits = []) :
    Mute (emit events : Action ι γ Unit) := by
  intro es s a t ht hs
  cases ht
  rw [Session.told_append, h, List.append_nil, hs]

theorem mute_pause (backoff : Backoff) (sleeper : Sleeper) (attempt : Nat) :
    Mute (pause backoff sleeper attempt : Action ι γ Unit) := by
  intro es s a t ht hs
  cases backoff <;> cases ht <;> exact hs

end Action

/-- Under observation a call reports nothing more. -/
theorem Call.watched_mute {call : Call ι γ} (hend : call.proceed.Ends) (h : call.proceed.Mute) :
    call.watched.proceed.Mute := fun es => Call.watched_preserves hend (h es)

namespace Execution

open CallGuard.Action

variable {i : Nat} {terms : Terms} {key : RetryKey} {call : Call ι γ} {s t u : Session ι γ}
  {result : Result} {l : Ledger} {events : List Event} {n : SequenceId}

theorem told_asked (s : Session ι γ) (i : Nat) (l : Ledger) (events : List Event) :
    (asked s i l events).told = s.told ++ events.filter Event.ofCircuits :=
  Session.told_append _ events

theorem recover_mute (r : Recoverer) (call : Call ι γ) (last : Failure) :
    (recover r call last).Mute := by
  have hnone : (r.recover call.arguments last).2.filter Event.ofCircuits = [] := by
    unfold Recoverer.recover
    split
    · rfl
    · split <;> rfl
  exact (mute_emit hnone).bind fun _ => .pure _

theorem refuse_mute (h : call.proceed.Mute) (x : Context) : (refuse terms call x).Mute := by
  unfold refuse
  split
  · exact recover_mute _ call _
  · split
    · exact .pure _
    · exact .pure _
    · exact h.bind fun _ => .pure _

/-- After an attempt nothing is reported but by the check that counts its failure. -/
theorem admitted_told {outcome : Except Failure Json}
    (h : answer s i terms.policy key = (.admitted n, l, events))
    (hc : call.proceed.Returns (asked s i l events) outcome u)
    (ht : (stateful i terms key call).Returns s result t) :
    t.told = u.told ++ match outcome with
      | .ok _ => []
      | .error f => ((u.ledgers.get i).fail terms.policy n f u.clock.now).2.2 := by
  have ht : (admitted i terms key n call).Returns (asked s i l events) result t :=
    (admitted_run call h).symm.trans ht
  obtain ⟨outcome, made, hmade, ht⟩ := ht.of_bind
  obtain ⟨rfl, rfl⟩ := hmade.unique hc
  cases outcome with
  | ok value =>
    cases ht
    exact Session.told_append _ []
  | error f =>
    obtain ⟨failed, s₅, h₅, ht⟩ := ht.of_bind
    cases h₅
    obtain ⟨setback, s₆, h₆, ht⟩ := ht.of_bind
    cases h₆
    -- what is reported after the count is not the circuit's
    refine (Mute.told ?_ ht).trans ?_
    · refine (mute_emit rfl).bind fun _ => ?_
      dsimp only
      split
      · exact (mute_pause _ _ _).bind fun _ => .pure _
      · exact .pure _
    · refine (Session.told_append _ _).trans ?_
      exact congrArg _ (Policy.filter_check ..)

end Execution

/-- What circuits report of a visit: what the check for admission does, and what the check does that
counts the failure of an attempt. -/
def Visit.reports (v : Visit) (policy : Policy) : List Event :=
  (v.admission policy).events ++ v.attempts.flatMap fun a =>
    match a.outcome with
    | .ok _ => []
    | .error f => (policy.check ((v.admission policy).context.fail f) a.ended).events

namespace Execution

variable {i : Nat} {call : Call ι γ} {s t : Session ι (Notes γ)} {result : Result}

/-- **What circuits report of a call with a key.** -/
theorem stateful_reports (terms : Terms) (key : RetryKey) (hs : (s.ledgers.get i).Sound)
    (hg : s.guest.attempts = []) (hm : s.guest.mark = s.pauses.size) (hend : call.proceed.Ends)
    (hspare : call.proceed.Spares i key.key) (hmute : call.proceed.Mute)
    (ht : (stateful i terms key call.watched).Returns s result t)
    (hroom : (Visit.of i key.key s t result).turnedAway = false) :
    t.told = s.told ++
      ((Visit.of i key.key s t result).facing key.refresh).reports terms.policy := by
  have hwatch := Call.watched_ends hend
  have hquiet := Call.watched_mute hend hmute
  let v := (Visit.of i key.key s t result).facing key.refresh
  change t.told = s.told ++ v.reports terms.policy
  rcases Ledger.ask_cases hs terms.policy key.key key.refresh s.clock.now s.clock.read.now with
    ⟨-, -, ha⟩ | ⟨hno, l, ha, hl, -⟩ | ⟨hyes, n, l, ha, hl, hcur, -⟩
  · obtain ⟨rfl, -⟩ := ht.unique (full_returns ha)
    cases hroom
  · obtain ⟨last, hlast⟩ :=
      terms.policy.failed_of_refused (hs.coherent_found key.key key.refresh _) hno
    obtain ⟨w, hw, -, hwg, -⟩ := rejected_returns call.watched hlast ha
    obtain ⟨-, rfl⟩ := ht.unique hw
    obtain ⟨refusal, u, hu⟩ := refuse_ends terms hwatch (v.admission terms.policy).context
      (asked s i l (v.admission terms.policy).events)
    obtain ⟨-, rfl⟩ := ht.unique (refused_returns ha hu)
    have hattempts : v.attempts = [] := (congrArg Notes.attempts hwg).trans hg
    rw [(refuse_mute hquiet _).told hu, told_asked, Visit.reports, hattempts]
    exact congrArg _ ((Policy.filter_check ..).trans (List.append_nil _).symm)
  · obtain ⟨outcome, u, hu, hua, -, -, hother⟩ := attempt_returns hend hg hm l _
    obtain ⟨hul, huc⟩ := hother key.key hspare hl
    have htold := admitted_told ha hu ht
    rw [hquiet.told hu, told_asked, Policy.filter_check] at htold
    have hguest : t.guest = u.guest := by
      cases outcome with
      | ok value =>
        obtain ⟨w, hw, -, hwg, -⟩ := success_returns ha hu
        obtain ⟨-, rfl⟩ := ht.unique hw
        exact hwg
      | error f =>
        obtain ⟨w, hw, -, hwg, -⟩ := failure_returns ha hu
        obtain ⟨-, rfl⟩ := ht.unique hw
        exact hwg
    have hattempts : v.attempts = [⟨[], outcome, u.clock.now⟩] :=
      (congrArg Notes.attempts hguest).trans hua
    rw [htold, Visit.reports, hattempts, List.append_assoc]
    cases outcome with
    | ok value => rfl
    | error f =>
      obtain ⟨l', hfail, -⟩ := Ledger.fail_spec hul (huc.trans hcur) terms.policy f u.clock.now
      dsimp only
      rw [hfail]
      exact congrArg (s.told ++ ·) (congrArg (_ ++ ·) (List.append_nil _).symm)

end Execution

namespace Round

/-- Apart from its guarded call the round has no circuit report anything. -/
structure Quiet (r : Round ι γ) : Prop where
  before : r.before.Mute
  call : r.call.proceed.Mute

theorem simple_quiet (policy : Policy) (key : String) (step : Duration)
    (outcome : Except Failure Json) : (simple policy key step outcome).Quiet where
  before es s a t h hs := by cases h; exact hs
  call := .pure outcome

theorem visit_reports {r : Round ι γ} {i patience : Nat} {s t : Session ι γ} {v : Visit}
    (h : r.Sequential i r.key) (hq : r.Quiet) (hs : (s.ledgers.get i).Sound)
    (hv : (r.visit patience i).Returns s v t) (hroom : v.turnedAway = false) :
    t.told = s.told ++ v.reports r.policy := by
  obtain ⟨⟨⟩, u, hu, hv⟩ := hv.of_bind
  obtain ⟨result, w, hw, rfl, rfl⟩ := Call.of_visit hv
  rw [← hq.before.told hu]
  exact Execution.stateful_reports (s := u.noting) (r.terms i) ⟨r.key, false⟩
    (h.before_spares s () u hu hs).1 rfl rfl h.call_ends h.call_spares hq.call hw hroom

end Round

/-- **What circuits report of a run**, under whatever keys its calls are made. -/
theorem play_told {i patience : Nat} {rounds : List (Round ι γ)} {s t : Session ι γ}
    {seen : List (Round ι γ × Visit)} (h : ∀ r ∈ rounds, r.Sequential i r.key)
    (hq : ∀ r ∈ rounds, r.Quiet) (hs : (s.ledgers.get i).Sound)
    (hplay : (play patience i rounds).Returns s seen t)
    (hroom : ∀ e ∈ seen, e.2.turnedAway = false) :
    t.told = s.told ++ seen.flatMap fun e => e.2.reports e.1.policy := by
  induction rounds generalizing s seen with
  | nil =>
    cases hplay
    exact (List.append_nil _).symm
  | cons r rounds ih =>
    obtain ⟨v, u, hv, hplay⟩ := hplay.of_bind
    obtain ⟨later, w, hlater, hplay⟩ := hplay.of_bind
    cases hplay
    obtain ⟨_, _, hv', hu, -⟩ := Round.visit_under patience (h r (.head _)) hs
    obtain ⟨rfl, rfl⟩ := hv.unique hv'
    have htold := Round.visit_reports (h r (.head _)) (hq r (.head _)) hs hv
      (hroom (r, v) (.head _))
    rw [ih (fun r' hr' => h r' (.tail _ hr')) (fun r' hr' => hq r' (.tail _ hr')) hu hlater
      fun e he => hroom e (.tail _ he), htold, List.append_assoc, List.flatMap_cons]

end CallGuard
