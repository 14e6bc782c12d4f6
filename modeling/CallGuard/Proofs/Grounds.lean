import CallGuard.Proofs.Ledger.Copies
import CallGuard.Proofs.Repeated
import CallGuard.Proofs.Unkeyed
/-! # Which refusals have a failure behind them

A context begins without a failure. Then failures are counted in it and policies check it, not
always the same ones. Whatever they do, it keeps no failure exactly where it counts none; and as
attempt limits are positive, a policy that refuses leaves a failure in it. So a call that is refused
is recovered from that failure or rejected for it, if no other call comes in between.

Between the check and the copy of the context that the call goes by, others can begin a new window
for the sequence. A copy without a failure comes about in this way only, and then the call is not
recovered; under an attempt limit it is even made. `refusals_have_failures` is both of these. -/

namespace CallGuard

variable {ι γ : Type}

namespace Context

/-- A context that can come about. A copy of one is the same context, with the same past. -/
inductive Arises : Context → Prop
  | fresh (now : Nat) : Arises (fresh now)
  | fail {x : Context} (f : Failure) : Arises x → Arises (x.fail f)
  | check {x : Context} (p : Policy) (now : Nat) : Arises x → Arises (p.check x now).context

theorem Arises.coherent {x : Context} (h : x.Arises) : x.Coherent := by
  induction h with
  | fresh now => exact coherent_fresh now
  | fail f _ _ => exact coherent_fail _ f
  | check p now _ ih => exact p.check_coherent ih now

end Context

/-! ## Ledgers of such contexts -/

namespace Ledger

/-- Each context that is kept has come about in some way. -/
def Grounded (l : Ledger) : Prop := ∀ n, (l.context n).Arises

variable {l l' : Ledger} {x : Context} {policy : Policy} {n : SequenceId} {now : Nat}

theorem grounded_empty (capacity : Nat) : (empty capacity).Grounded := fun _ => .fresh 0

/-- It does not matter which sequences are current. -/
theorem Grounded.congr (h : l.Grounded) (hc : l'.contexts = l.contexts) : l'.Grounded := by
  intro n
  rw [context_congr hc]
  exact h n

theorem Grounded.setContext (h : l.Grounded) (n : SequenceId) (hx : x.Arises) :
    (l.setContext n x).Grounded := by
  intro m
  simp only [context, Ledger.setContext, Array.getElem?_setIfInBounds]
  split
  · split
    · exact hx
    · exact .fresh 0
  · exact h m

/-- A sequence is opened with a new context. -/
theorem Grounded.push (h : l.Grounded) (hc : l'.contexts = l.contexts.push (Context.fresh now)) :
    l'.Grounded := by
  intro m
  simp only [context, hc, Array.getElem?_push]
  split
  · exact .fresh now
  · exact h m

theorem Grounded.step (h : l.Grounded) (s : Step) : (l.step s).Grounded := by
  cases s with
  | finds key refresh now =>
    rcases l.contexts_find key refresh now with hc | hc
    · exact h.congr hc
    · exact h.push hc
  | checks policy n now => exact h.setContext n (.check policy now (h n))
  | copies => exact h
  | releases policy key => exact h.congr (l.contexts_release policy key)
  | fails policy n f now => exact h.setContext n (.check policy now (.fail f (h n)))

theorem Grounded.after (h : l.Grounded) (steps : List Step) : (l.after steps).Grounded := by
  induction steps generalizing l with
  | nil => exact h
  | cons s steps ih => exact ih (h.step s)

/-- A check that refuses is of a sequence that has been opened, and leaves a failure there. -/
theorem Grounded.failed_of_refused (h : l.Grounded) (hno : (l.check policy n now).1 = false) :
    n < (l.check policy n now).2.1.contexts.size ∧
      ∃ last, ((l.check policy n now).2.1.context n).last = some last := by
  obtain ⟨last, hlast⟩ := policy.failed_of_refused (h n).coherent hno
  have hn : n < l.contexts.size := by
    refine Nat.lt_of_not_le fun hle => ?_
    have hnone : (l.context n).last = none := by simp [context, Array.getElem?_eq_none hle]; rfl
    rw [Policy.last_check_eq_none.mpr (.inr hnone)] at hlast
    cases hlast
  exact ⟨Nat.lt_of_lt_of_le hn (l.size_le_step (.checks policy n now)), last,
    (congrArg _ (context_setContext_self hn _)).trans hlast⟩

/-- Where nobody comes in between, a call is refused for a failure. -/
theorem Grounded.failed_of_ask (h : l.Grounded) {key : String} {refresh : Bool}
    {created asked : Nat} {events : List Event}
    (ha : l.ask policy key refresh created asked = (.refused x, l', events)) :
    ∃ last, x.last = some last := by
  unfold ask at ha
  cases hs : l.sequenceFor key refresh created with
  | error full => rw [hs] at ha; cases ha
  | ok found =>
    obtain ⟨n, m⟩ := found
    have hm : m.Grounded := (contexts_sequenceFor hs).elim h.congr h.push
    rw [hs] at ha
    dsimp only at ha
    split at ha
    · cases ha
    · next hno =>
      cases ha
      exact (hm.failed_of_refused (Bool.eq_false_iff.mpr hno)).2

end Ledger

/-! ## Runs -/

def Session.Grounded (s : Session ι γ) : Prop := ∀ i, (s.ledgers.get i).Grounded

theorem Session.grounded_begin (guest : γ) : (Session.begin guest : Session ι γ).Grounded :=
  fun _ => Ledger.grounded_empty _

theorem Session.indifferent_grounded :
    Action.Indifferent (Session.Grounded : Session ι γ → Prop) :=
  Action.indifferent_ledgers fun ledgers => ∀ i, (ledgers.get i).Grounded

theorem Action.onLedger_keeps {α : Type} {i : Nat} {Q : Nat → Ledger → Prop}
    {step : Ledger → α × Ledger × List Event} (hstep : ∀ l, Q i l → Q i (step l).2.1) :
    (onLedger i step : Action ι γ α).Preserves fun s => ∀ j, Q j (s.ledgers.get j) := by
  intro s a t ht hs j
  cases ht
  simp only [Shelf.get_set]
  split
  · next hj => exact hj ▸ hstep _ (hs i)
  · exact hs j

namespace Execution

open CallGuard.Action

variable {call : Call ι γ} {terms : Terms} {i : Nat} {key : RetryKey}

/-- A call with a key keeps what each single step keeps. -/
theorem stateful_keeps {Q : Nat → Ledger → Prop}
    (hQ : ∀ (l : Ledger) (s : Ledger.Step), Q i l → Q i (l.step s))
    (hcall : call.proceed.Preserves fun s => ∀ j, Q j (s.ledgers.get j)) :
    (stateful i terms key call).Preserves fun s => ∀ j, Q j (s.ledgers.get j) :=
  stateful_preserves_steps (indifferent_ledgers fun ledgers => ∀ j, Q j (ledgers.get j))
    (fun created => onLedger_keeps fun l => hQ l (.finds key.key key.refresh created))
    (fun n asked => onLedger_keeps fun l => hQ l (.checks terms.policy n asked))
    (fun n => onLedger_keeps fun l => hQ l (.copies n))
    (onLedger_keeps fun l => hQ l (.releases terms.policy key.key))
    (fun n f now => onLedger_keeps fun l => hQ l (.fails terms.policy n f now)) hcall

/-- What is done on each ledger is a list of steps. -/
def Stepwise {α : Type} (act : Action ι γ α) : Prop :=
  ∀ start : Nat → Ledger, act.Preserves fun s =>
    ∀ j, ∃ steps, (start j).after steps = s.ledgers.get j

/-- **A call with a key goes step by step**, if the call itself does. -/
theorem stateful_stepwise (terms : Terms) (key : RetryKey) (hcall : Stepwise call.proceed) :
    Stepwise (stateful i terms key call) := by
  intro start
  let Reached (j : Nat) (l : Ledger) : Prop := ∃ steps, (start j).after steps = l
  have hreached (l : Ledger) (s : Ledger.Step) (hl : Reached i l) : Reached i (l.step s) := by
    obtain ⟨steps, rfl⟩ := hl
    exact ⟨steps ++ [s], List.foldl_append⟩
  exact stateful_keeps (Q := Reached) hreached (hcall start)

theorem stateful_grounded (hcall : call.proceed.Preserves Session.Grounded) :
    (stateful i terms key call).Preserves Session.Grounded :=
  stateful_keeps (fun _ s hl => hl.step s) hcall

/-- A plan carried out leaves such contexts if the call does. -/
theorem run_grounded {plan : Plan} (hcall : call.proceed.Preserves Session.Grounded)
    (patience : Nat) : (run patience plan call).Preserves Session.Grounded := by
  unfold run
  split
  · exact .pure _
  · exact stateless_preserves Session.indifferent_grounded hcall patience
  · exact stateful_grounded hcall

/-- The session when a refused call has let its key go. -/
def released (t : Session ι γ) (i : Nat) (policy : Policy) (key : RetryKey) : Session ι γ :=
  { t with ledgers := t.ledgers.modify i (·.release policy key.key) }

/-- A refused call goes by the copy that it takes. -/
theorem rejected_run (terms : Terms) (key : RetryKey) (n : SequenceId) (call : Call ι γ)
    (t : Session ι γ) : (rejected i terms key n call).run t =
      (refuse terms call ((t.ledgers.get i).context n)).run (released t i terms.policy key) := by
  simp [rejected, released, Shelf.modify, Shelf.set_set]

/-- **Every refusal has a failure to tell of, unless a new window begins before it is told.** A
context that can come about keeps no failure exactly where it counts none. A policy that refuses
leaves a failure in it, so what follows the refusal is to conclude with that failure: by the
recoverer if there is one, else with an error, and never by making the call.

Without a key a call is made as often as it is attempted; the failure that the policy refuses is its
last, and is concluded with. With a key a refused call is not made at all, if nobody comes in
between. Whatever steps other calls take between the check and the copy, the copy can come about,
and it has no failure if and only if one of them has begun a new window for the sequence and none
has counted a failure since. The call is concluded with the failure of the copy; if there is none,
it is not recovered.

Ledgers keep only contexts that can come about, from the beginning and through any calls, one after
the other on whatever terms, that leave them so themselves. -/
theorem refusals_have_failures (he : terms.executor = .attempting i) (patience : Nat)
    (call : Call ι γ) {s : Session ι γ} (hs : s.Grounded) :
    (∀ x : Context, x.Arises → (x.attempts = 0 ↔ x.last = none) ∧
      ∀ (p : Policy) (now : Nat), (p.check x now).allowed = false →
        let left := (p.check x now).context
        ∃ last, left.last = some last ∧
          giveUp terms call left = (do
            Action.emit [.retriesExhausted call.method left.attempts]
            conclude terms call last (.failed last)) ∧
          refuse terms call left = conclude terms call last (terms.refusal left.attempts last)) ∧
    (∃ failed x, terms.policy.Retried (Context.fresh s.clock.now) failed x ∧
      Course terms call (rounds terms.policy patience) s failed x
        ((run patience ⟨terms, none⟩ call).run s)) ∧
    (∀ key x l events, answer s i terms.policy key = (.refused x, l, events) →
      ∃ last, x.last = some last ∧ (run patience ⟨terms, some key⟩ call).run s =
        (conclude terms call last (terms.refusal x.attempts last)).run (asked s i l events)) ∧
    (∀ key n now, ((s.ledgers.get i).check terms.policy n now).1 = false →
      let checked := ((s.ledgers.get i).check terms.policy n now).2.1
      ∀ between (t : Session ι γ), t.ledgers.get i = checked.after between →
        let copy := (t.ledgers.get i).context n
        copy.Arises ∧ (copy.last = none ↔ checked.Emptied n between) ∧
        (∀ last, copy.last = some last → (rejected i terms key n call).run t =
          (conclude terms call last (terms.refusal copy.attempts last)).run
            (released t i terms.policy key)) ∧
        (copy.last = none → (rejected i terms key n call).run t =
          (unfounded terms call).run (released t i terms.policy key))) ∧
    (∀ guest, (Session.begin guest : Session ι γ).Grounded) ∧
    ∀ calls : List (Plan × Call ι γ), (∀ c ∈ calls, c.2.proceed.Preserves Session.Grounded) →
      (calls.mapM fun c => run patience c.1 c.2).Preserves Session.Grounded := by
  refine ⟨fun x hx => ⟨hx.coherent.symm, fun p now hno => ?_⟩, ?_, fun key x l events h => ?_,
    fun key n now hno => ?_, Session.grounded_begin,
    fun calls hcalls => .mapM fun c hc => run_grounded (hcalls c hc) patience⟩
  · obtain ⟨last, hlast⟩ := p.failed_of_refused hx.coherent hno
    exact ⟨last, hlast, giveUp_concludes terms call hlast, refuse_concludes terms call hlast⟩
  · rw [run_unkeyed he]
    exact stateless_course terms call patience s
  · obtain ⟨last, hlast⟩ := (hs i).failed_of_ask h
    refine ⟨last, hlast, ?_⟩
    rw [run_keyed he, refused_run call h, refuse_concludes terms call hlast]
  · intro checked between t ht copy
    obtain ⟨hn, last, hlast⟩ := (hs i).failed_of_refused hno
    have hchecked : checked.Grounded := (hs i).step (.checks terms.policy n now)
    have hcopy : copy = (checked.after between).context n := congrArg (·.context n) ht
    rw [rejected_run]
    refine ⟨hcopy ▸ hchecked.after between n, ?_, fun last hlast => ?_, fun hnone => ?_⟩
    · rw [hcopy]
      exact Ledger.last_after_eq_none hn (by rw [hlast]; nofun) between
    · rw [refuse_concludes terms call hlast]
    · rw [refuse_unfounded terms call hnone]

end Execution

/-! ## Two refusals after one failure -/

def down : Failure := ⟨⟨.root "Down" "Down", "down"⟩, []⟩

def excusing : Terms :=
  { threeTimes with
    policy := .attempts (.retrying 0)
    recoverer := some ⟨"Stock", .native fun _ _ => .ok .null⟩ }

/-- The only attempt for the key has failed. -/
def failedOnce : Ledger :=
  (Ledger.empty 1).after
    [.finds "k" false 0, .checks excusing.policy 0 0, .fails excusing.policy 0 down 0]

def holding (l : Ledger) : Session Unit Nat :=
  { Session.begin 0 with ledgers := Shelf.empty.set 0 l }

theorem grounded_holding {l : Ledger} (hl : l.Grounded) : (holding l).Grounded := by
  intro i
  simp only [holding, Shelf.get_set]
  split
  · exact hl
  · exact Ledger.grounded_empty _

/-- After the check another call under the key is refused too, and goes first. -/
def overtaken : Ledger :=
  (failedOnce.check excusing.policy 0 0).2.1.after
    [.finds "k" false 1, .checks excusing.policy 0 1, .copies 0, .releases excusing.policy "k"]

theorem refusals_have_failures_exhausted :
    (∃ x l events last,
      Execution.answer (holding failedOnce) 0 excusing.policy ⟨"k", false⟩ =
        (.refused x, l, events) ∧
      x.last = some last ∧
      (Execution.run 0 ⟨excusing, some ⟨"k", false⟩⟩ hiccuping).run (holding failedOnce) =
        (Execution.conclude excusing hiccuping last (.exhausted 1 last)).run
          (Execution.asked (holding failedOnce) 0 l events)) ∧
    (Execution.rejected 0 excusing ⟨"k", false⟩ 0 hiccuping).run (holding overtaken) =
      (Execution.conclude excusing hiccuping down (.exhausted 1 down)).run
        (Execution.released (holding overtaken) 0 excusing.policy ⟨"k", false⟩) := by
  have hgrounded : (holding failedOnce).Grounded :=
    grounded_holding ((Ledger.grounded_empty 1).after _)
  obtain ⟨-, -, hkeyed, hbetween, -⟩ := Execution.refusals_have_failures
    (rfl : excusing.executor = .attempting 0) 0 hiccuping hgrounded
  obtain ⟨last, hlast, hrun⟩ := hkeyed ⟨"k", false⟩ _ _ _ rfl
  obtain ⟨-, -, hsome, -⟩ := hbetween ⟨"k", false⟩ 0 0 rfl _ (holding overtaken) rfl
  exact ⟨⟨_, _, _, last, rfl, hlast, hrun⟩, hsome down rfl⟩

/-- One failure opens the circuit for 20 seconds. -/
def guarded : Terms :=
  { excusing with
    policy := .circuit
      ⟨.retrying 0, Duration.ofMillis 5000, Duration.ofMillis 20000, "stock"⟩ }

def tripped : Ledger :=
  (Ledger.empty 1).after [.finds "circuit:stock" false 0, .fails guarded.policy 0 down 0]

/-- After a check at 20 seconds another call's check closes the circuit. -/
def closed (policy : Policy) : Ledger :=
  (tripped.check policy 0 20000).2.1.after [.checks guarded.policy 0 20001]

/-- A call refused by the circuit is not recovered, although there is a recoverer; one refused by an
attempt limit is made. -/
theorem rejected_unrecovered :
    guarded.recoverer.isSome = true ∧
    (tripped.check guarded.policy 0 20000).1 = false ∧
    ((Execution.rejected 0 guarded ⟨"circuit:stock", false⟩ 0 hiccuping).run
      (holding (closed guarded.policy))).map (·.1) = some (.error (.circuitOpen "stock")) ∧
    (tripped.check excusing.policy 0 20000).1 = false ∧
    ((Execution.rejected 0 excusing ⟨"circuit:stock", false⟩ 0 hiccuping).run
      (holding (closed excusing.policy))).map (fun p => (p.1, p.2.guest)) =
        some (.error (.failed down), 1) :=
  ⟨rfl, rfl, rfl, rfl, rfl⟩

end CallGuard
