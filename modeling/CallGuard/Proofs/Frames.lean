import CallGuard.Proofs.Watching
/-! # What carrying a plan out leaves to the call

The steps that carry a plan out move the clock, draw words, make pauses, report events and, for a
call with a key, write one ledger. Everything else about a session changes only while the call is
made. So a property that looks at none of these holds after a guarded call if it held before and the
call preserves it: what the calls keep for themselves, and the strategies that dispatchers keep, are
the cases in use. -/

namespace CallGuard

variable {ι γ α β : Type}

namespace Action

/-- Begun in a session with the property, the action ends in such a session if it ends. -/
def Preserves (P : Session ι γ → Prop) (act : Action ι γ α) : Prop :=
  ∀ s a t, act.Returns s a t → P s → P t

variable {P : Session ι γ → Prop} {act : Action ι γ α} {next : α → Action ι γ β}

theorem Returns.of_bind {s u : Session ι γ} {b : β} (h : (act >>= next).Returns s b u) :
    ∃ a t, act.Returns s a t ∧ (next a).Returns t b u := by
  unfold Returns at h ⊢
  rw [StateT.run_bind] at h
  obtain ⟨⟨a, t⟩, ha, hb⟩ := Option.bind_eq_some_iff.mp h
  exact ⟨a, t, ha, hb⟩

theorem Preserves.pure (a : α) : Preserves P (pure a : Action ι γ α) := by
  intro s b t h hs
  cases h; exact hs

theorem Preserves.bind (h : act.Preserves P) (hn : ∀ a, (next a).Preserves P) :
    (act >>= next).Preserves P := by
  intro s b u hb hs
  obtain ⟨a, t, ha, hb⟩ := hb.of_bind
  exact hn a t b u hb (h s a t ha hs)

/-- One action after the other. -/
theorem Preserves.mapM {f : β → Action ι γ α} {bs : List β} (h : ∀ b ∈ bs, (f b).Preserves P) :
    (bs.mapM f).Preserves P := by
  induction bs with
  | nil => rw [List.mapM_nil]; exact .pure _
  | cons b bs ih =>
    obtain ⟨hb, hbs⟩ := List.forall_mem_cons.mp h
    rw [List.mapM_cons]
    exact hb.bind fun _ => (ih hbs).bind fun _ => .pure _

theorem preserves_failure : Preserves P (failure : Action ι γ α) := by
  intro s a t h; cases h

/-- The property does not look at what every guarded call moves. -/
structure Indifferent (P : Session ι γ → Prop) : Prop where
  clock : ∀ s c, P s → P { s with clock := c }
  events : ∀ s es, P s → P { s with events := es }
  pauses : ∀ s w ps, P s → P { s with words := w, pauses := ps }

theorem Indifferent.now (h : Indifferent P) : Preserves P (now : Action ι γ Nat) := by
  intro s a t ht hs
  cases ht; exact h.clock s _ hs

theorem Indifferent.emit (h : Indifferent P) (events : List Event) : Preserves P (emit events) := by
  intro s a t ht hs
  cases ht; exact h.events s _ hs

theorem Indifferent.pause (h : Indifferent P) (backoff : Backoff) (sleeper : Sleeper)
    (attempt : Nat) : Preserves P (pause backoff sleeper attempt) := by
  intro s a t ht hs
  cases backoff <;> cases ht <;> first | exact hs | exact h.pauses s _ _ hs

/-- A property of what calls keep for themselves. -/
theorem indifferent_guest (P : γ → Prop) : Indifferent fun s : Session ι γ => P s.guest :=
  ⟨fun _ _ h => h, fun _ _ h => h, fun _ _ _ h => h⟩

theorem indifferent_resolved (P : Known ι → Prop) :
    Indifferent fun s : Session ι γ => P s.resolved :=
  ⟨fun _ _ h => h, fun _ _ h => h, fun _ _ _ h => h⟩

theorem indifferent_ledgers (P : Shelf Ledger → Prop) :
    Indifferent fun s : Session ι γ => P s.ledgers :=
  ⟨fun _ _ h => h, fun _ _ h => h, fun _ _ _ h => h⟩

theorem spares_iff {i : Nat} {key : String} : act.Spares i key ↔
    ∀ c, act.Preserves fun s => (s.ledgers.get i).Sound ∧ (s.ledgers.get i).current? key = c := by
  constructor
  · intro h c s a t ht ⟨hs, hc⟩
    obtain ⟨hts, htc⟩ := h s a t ht hs
    exact ⟨hts, htc.trans hc⟩
  · intro h s a t ht hs
    exact h _ s a t ht ⟨hs, rfl⟩

/-- The property does not look at a ledger. -/
def Disregards (i : Nat) (P : Session ι γ → Prop) : Prop :=
  ∀ s l, P s → P { s with ledgers := s.ledgers.set i l }

theorem Disregards.onLedger {i : Nat} (h : Disregards i P) (hi : Indifferent P)
    (step : Ledger → α × Ledger × List Event) : Preserves P (onLedger i step) := by
  intro s a t ht hs
  cases ht; exact hi.events _ _ (h s _ hs)

/-- What a step keeps of the ledger holds of the ledger after it. -/
theorem onLedger_preserves {i : Nat} {Q : Ledger → Prop} {step : Ledger → α × Ledger × List Event}
    (h : ∀ l, Q l → Q (step l).2.1) :
    (onLedger i step : Action ι γ α).Preserves fun s => Q (s.ledgers.get i) := by
  intro s a t ht hs
  cases ht
  change Q ((s.ledgers.set i _).get i)
  rw [Shelf.get_set_self]
  exact h _ hs

end Action

/-- A watched call preserves what the call does. -/
theorem Call.watched_preserves {P : Session ι γ → Prop} {call : Call ι γ} (hend : call.proceed.Ends)
    (hcall : call.proceed.Preserves P) :
    call.watched.proceed.Preserves fun s => P (s.withGuest s.guest.own) := by
  intro s a t ht hs
  obtain ⟨outcome, u, hu⟩ := hend (s.withGuest s.guest.own)
  obtain ⟨-, rfl⟩ := ht.unique (Call.watched_returns hu)
  exact hcall _ outcome u hu hs

/-- The notes of a watched call are about its own outcomes. -/
theorem Call.watched_notes {call : Call ι γ} (hend : call.proceed.Ends)
    {Q : Except Failure Json → Prop}
    (hQ : ∀ s outcome t, call.proceed.Returns s outcome t → Q outcome) :
    call.watched.proceed.Preserves fun s => ∀ a ∈ s.guest.attempts, Q a.outcome := by
  intro s a t ht hs
  obtain ⟨outcome, u, hu⟩ := hend (s.withGuest s.guest.own)
  obtain ⟨-, rfl⟩ := ht.unique (Call.watched_returns hu)
  exact List.forall_mem_append.mpr ⟨hs, List.forall_mem_singleton.mpr (hQ _ outcome u hu)⟩

namespace Execution

open CallGuard.Action

variable {P : Session ι γ → Prop} {call : Call ι γ} {terms : Terms}

theorem once_preserves (hcall : call.proceed.Preserves P) : call.once.Preserves P :=
  hcall.bind fun _ => .pure _

theorem recover_preserves (hi : Indifferent P) (r : Recoverer) (call : Call ι γ) (last : Failure) :
    (recover r call last).Preserves P := (hi.emit _).bind fun _ => .pure _

theorem giveUp_preserves (hi : Indifferent P) (hcall : call.proceed.Preserves P)
    (context : Context) : (giveUp terms call context).Preserves P := by
  unfold giveUp
  cases context.last with
  | none => exact once_preserves hcall
  | some last =>
    refine (hi.emit _).bind fun _ => ?_
    cases terms.recoverer with
    | none => exact .pure _
    | some r => exact recover_preserves hi r call last

theorem attempts_preserves (hi : Indifferent P) (hcall : call.proceed.Preserves P) (rounds : Nat)
    (context : Context) : (attempts terms call rounds context).Preserves P := by
  induction rounds generalizing context with
  | zero => exact preserves_failure
  | succ rounds ih =>
    refine hcall.bind fun outcome => ?_
    cases outcome with
    | ok value => exact .pure _
    | error f =>
      refine hi.now.bind fun time => (hi.emit _).bind fun _ => ?_
      split
      · exact (hi.emit _).bind fun _ => (hi.pause _ _ _).bind fun _ => ih _
      · exact giveUp_preserves hi hcall _

theorem stateless_preserves (hi : Indifferent P) (hcall : call.proceed.Preserves P)
    (patience : Nat) : (stateless patience terms call).Preserves P :=
  hi.now.bind fun _ => attempts_preserves hi hcall _ _

theorem refuse_preserves (hi : Indifferent P) (hcall : call.proceed.Preserves P)
    (context : Context) : (refuse terms call context).Preserves P := by
  unfold refuse
  split
  · exact recover_preserves hi _ call _
  · split
    · exact .pure _
    · exact .pure _
    · exact once_preserves hcall

/-- What follows the count of a failed attempt. -/
theorem setback_preserves (hi : Indifferent P) (terms : Terms) (event : Event) (again : Bool)
    (n : Nat) (result : Result) : Preserves P (do
      emit [event]
      if again then pause terms.backoff terms.sleeper n
      return result) := by
  refine (hi.emit _).bind fun _ => ?_
  dsimp only
  split
  · exact (hi.pause _ _ _).bind fun _ => .pure _
  · exact .pure _

theorem admitted_preserves {i : Nat} {key : RetryKey} {n : SequenceId} (hi : Indifferent P)
    (hrelease : Preserves P (onLedger i fun l => ((), l.release terms.policy key.key, [])))
    (hfail : ∀ f now, Preserves P (onLedger i (·.fail terms.policy n f now)))
    (hcall : call.proceed.Preserves P) : (admitted i terms key n call).Preserves P := by
  refine hcall.bind fun outcome => ?_
  cases outcome with
  | ok value => exact hrelease.bind fun _ => .pure _
  | error f =>
    exact hi.now.bind fun failed => (hfail f failed).bind fun setback =>
      setback_preserves hi terms _ setback.retryAgain setback.attempts (.error (.failed f))

/-- A call with a key takes these steps on its ledger, one by one: it finds a sequence and has it
checked; then it counts a failure, or lets the key go, before which a refused call takes a copy. -/
theorem stateful_preserves_steps {i : Nat} {key : RetryKey} (hi : Indifferent P)
    (hfind : ∀ created, Preserves P (onLedger i (·.find key.key key.refresh created)))
    (hcheck : ∀ n asked, Preserves P (onLedger i (·.check terms.policy n asked)))
    (hcopy : ∀ n, Preserves P (onLedger i fun l => (l.context n, l, [])))
    (hrelease : Preserves P (onLedger i fun l => ((), l.release terms.policy key.key, [])))
    (hfail : ∀ n f now, Preserves P (onLedger i (·.fail terms.policy n f now)))
    (hcall : call.proceed.Preserves P) : (stateful i terms key call).Preserves P := by
  refine hi.now.bind fun created => hi.now.bind fun asked => (hfind created).bind fun found => ?_
  cases found with
  | error full => exact .pure _
  | ok n =>
    refine (hcheck n asked).bind fun allowed => ?_
    cases allowed with
    | true => exact admitted_preserves hi hrelease (hfail n) hcall
    | false =>
      exact (hcopy n).bind fun copy => hrelease.bind fun _ => refuse_preserves hi hcall copy

theorem stateful_preserves {i : Nat} (hi : Indifferent P) (hl : Disregards i P)
    (hcall : call.proceed.Preserves P) (key : RetryKey) :
    (stateful i terms key call).Preserves P :=
  stateful_preserves_steps hi (fun _ => hl.onLedger hi _) (fun _ _ => hl.onLedger hi _)
    (fun _ => hl.onLedger hi _) (hl.onLedger hi _) (fun _ _ _ => hl.onLedger hi _) hcall

/-- A plan carried out preserves what the call preserves. -/
theorem run_preserves {plan : Plan} (hi : Indifferent P) (hl : ∀ i, Disregards i P)
    (hcall : call.proceed.Preserves P) (patience : Nat) :
    (run patience plan call).Preserves P := by
  unfold run
  split
  · exact .pure _
  · exact stateless_preserves hi hcall patience
  · exact stateful_preserves hi (hl _) hcall _

end Execution

end CallGuard
