import CallGuard.Proofs.Dispatch.Origins
import CallGuard.Proofs.Dispatch.Pinned
/-! # Dispatches that end before anything is done for the call

Two kinds of error say that a call was not even tried: the settings of its method are to blame, or
there is no room for its key. The first can come only of resolving the method, the second only of
the ledger's answer when a call with a key asks for an attempt; whatever the call and its recovery
come to ends in another way (`Result.Attended`). So at either error nothing has happened but that
the method was resolved and the clock was read. -/

namespace CallGuard

variable {ι γ α β : Type}

/-- The result is not an error that says the call was not tried. -/
def Result.Attended (r : Result) : Prop :=
  ∀ e, r = .error e → e.isConfiguration = false ∧ ∀ n, e ≠ .contextsFull n

theorem attended_ok (value : Json) : Result.Attended (.ok value) := nofun

theorem attended_mapError (outcome : Except Failure Json) :
    Result.Attended (outcome.mapError .failed) := by
  intro e he
  cases outcome with
  | ok value => cases he
  | error f => cases he; exact ⟨rfl, nofun⟩

namespace Action

variable {Q : α → Prop} {R : β → Prop} {act : Action ι γ α} {next : α → Action ι γ β}

/-- Whatever the action ends with has the property. -/
def Yields (Q : α → Prop) (act : Action ι γ α) : Prop := ∀ s a t, act.Returns s a t → Q a

theorem Yields.pure {a : α} (h : Q a) : Yields Q (pure a : Action ι γ α) := by
  intro s b t hb
  cases hb
  exact h

theorem Yields.bind (h : ∀ a, (next a).Yields R) : (act >>= next).Yields R := by
  intro s b u hb
  obtain ⟨a, t, -, hb⟩ := hb.of_bind
  exact h a t b u hb

theorem yields_failure : Yields Q (failure : Action ι γ α) := by
  intro s a t h
  cases h

end Action

/-! ## What carrying a plan out ends with -/

namespace Execution

open CallGuard.Action

variable {terms : Terms} {call : Call ι γ} {i : Nat} {key : RetryKey} {s t : Session ι γ}
  {result : Result}

theorem once_attended (call : Call ι γ) : call.once.Yields Result.Attended :=
  .bind fun outcome => .pure (attended_mapError outcome)

theorem recover_attended (r : Recoverer) (call : Call ι γ) (last : Failure) :
    (recover r call last).Yields Result.Attended := .bind fun _ => .pure (attended_mapError _)

theorem giveUp_attended (terms : Terms) (call : Call ι γ) (context : Context) :
    (giveUp terms call context).Yields Result.Attended := by
  unfold giveUp
  cases context.last with
  | none => exact once_attended call
  | some last =>
    refine .bind fun _ => ?_
    cases terms.recoverer with
    | none => exact .pure fun e he => by cases he; exact ⟨rfl, nofun⟩
    | some r => exact recover_attended r call last

theorem attempts_attended (terms : Terms) (call : Call ι γ) (rounds : Nat) (context : Context) :
    (attempts terms call rounds context).Yields Result.Attended := by
  induction rounds generalizing context with
  | zero => exact yields_failure
  | succ rounds ih =>
    refine .bind fun outcome => ?_
    cases outcome with
    | ok value => exact .pure (attended_ok value)
    | error f =>
      refine .bind fun time => .bind fun _ => ?_
      split
      · exact .bind fun _ => .bind fun _ => ih _
      · exact giveUp_attended terms call _

theorem refuse_attended (terms : Terms) (call : Call ι γ) (context : Context) :
    (refuse terms call context).Yields Result.Attended := by
  unfold refuse
  split
  · exact recover_attended _ call _
  · split
    · exact .pure fun e he => by cases he; exact ⟨rfl, nofun⟩
    · exact .pure fun e he => by cases he; exact ⟨rfl, nofun⟩
    · exact once_attended call

theorem admitted_attended (terms : Terms) (key : RetryKey) (n : SequenceId) (call : Call ι γ) :
    (admitted i terms key n call).Yields Result.Attended := by
  refine .bind fun outcome => ?_
  cases outcome with
  | ok value => exact .bind fun _ => .pure (attended_ok value)
  | error f =>
    have hfailed : Result.Attended (.error (.failed f)) := attended_mapError (.error f)
    refine .bind fun _ => .bind fun setback => .bind fun _ => ?_
    dsimp only
    split
    · exact .bind fun _ => .pure hfailed
    · exact .pure hfailed

/-- A call with a key is attended to, unless the ledger has no room for it. -/
theorem stateful_attended (ht : (stateful i terms key call).Returns s result t) :
    result.Attended ∨ ∃ capacity l events,
      answer s i terms.policy key = (.full capacity, l, events) ∧
      result = .error (.contextsFull capacity) ∧ t = asked s i l events := by
  rcases h : answer s i terms.policy key with ⟨capacity | x | n, l, events⟩
  · obtain ⟨rfl, rfl⟩ := ht.unique (full_returns h)
    exact .inr ⟨capacity, l, events, rfl, rfl, rfl⟩
  · exact .inl (refuse_attended terms call x _ _ _ ((refused_run call h).symm.trans ht))
  · exact .inl (admitted_attended terms key n call _ _ _ ((admitted_run call h).symm.trans ht))

end Execution

/-! ## Where there is no room for a key -/

namespace Ledger

variable {l l' : Ledger} {key : String} {events : List Event} {capacity : Nat}

theorem sequenceFor_eq_error {refresh : Bool} {now : Nat} {full : Full} :
    l.sequenceFor key refresh now = .error full ↔
      l.live.get? key = none ∧ l.live.isFull = true ∧ full = ⟨l.live.capacity⟩ := by
  constructor
  · intro h
    cases hk : l.live.get? key with
    | some n =>
      cases refresh with
      | false => rw [sequenceFor_known hk] at h; cases h
      | true =>
        have hstored : l.live.contains key = true := congrArg Option.isSome hk
        rw [sequenceFor_renewing, hstored, if_neg nofun] at h
        cases h
    | none =>
      cases hf : l.live.isFull with
      | false => rw [sequenceFor_new hk hf] at h; cases h
      | true =>
        rw [sequenceFor_full hk hf] at h
        cases h
        exact ⟨rfl, rfl, rfl⟩
  · rintro ⟨hk, hf, rfl⟩
    exact sequenceFor_full hk hf refresh now

theorem get?_eq_none : l.get? key = none ↔ l.live.get? key = none := Option.map_eq_none_iff

/-- There is no room for a key that is not stored when as many are stored as the capacity allows,
whatever the policy is, and whether or not earlier attempts are set aside. The ledger stays as it
was. -/
theorem ask_eq_full {policy : Policy} {refresh : Bool} {created asked : Nat} :
    l.ask policy key refresh created asked = (.full capacity, l', events) ↔
      l.get? key = none ∧ l.live.capacity ≤ l.live.size ∧ capacity = l.live.capacity ∧
        l' = l ∧ events = [] := by
  have hfull : l.live.isFull = true ↔ l.live.capacity ≤ l.live.size := decide_eq_true_iff
  unfold ask
  rw [get?_eq_none]
  constructor
  · intro h
    split at h
    · next full hs =>
      cases h
      obtain ⟨hk, hf, rfl⟩ := sequenceFor_eq_error.mp hs
      exact ⟨hk, hfull.mp hf, rfl, rfl, rfl⟩
    · dsimp only at h
      split at h <;> cases h
  · rintro ⟨hk, hf, rfl, rfl, rfl⟩
    rw [sequenceFor_full hk (hfull.mpr hf)]

end Ledger

namespace Guard

variable {g : Guard} {call : Call ι γ} {i : Nat} {key : RetryKey} {s t : Session ι γ}
  {result : Result} {capacity : Nat}

theorem invoke_keyed (he : g.terms.executor = .attempting i)
    (hkey : g.keyOf call.method call.arguments = some key) (patience : Nat) :
    g.invoke patience call = Execution.stateful i g.terms key call := by
  cases g with
  | stateless terms => cases hkey
  | stateful terms rule =>
    have hkey : rule.key? call.method call.arguments = some key := hkey
    unfold invoke
    dsimp only
    rw [hkey]
    exact Execution.run_keyed he patience key call
  | circuit terms label ledger =>
    cases hkey
    exact Execution.run_keyed he patience _ call

theorem invoke_unkeyed_attended (he : g.terms.executor = .attempting i)
    (hkey : g.keyOf call.method call.arguments = none) (patience : Nat) :
    (g.invoke patience call).Yields Result.Attended := by
  cases g with
  | stateless terms =>
    change (Execution.run patience ⟨terms, none⟩ call).Yields _
    rw [Execution.run_unkeyed (show terms.executor = .attempting i from he)]
    exact .bind fun _ => Execution.attempts_attended terms call _ _
  | stateful terms rule =>
    have hkey : rule.key? call.method call.arguments = none := hkey
    unfold invoke
    dsimp only
    rw [hkey]
    exact .bind fun _ => Execution.once_attended call
  | circuit terms label ledger => cases hkey

/-- There is no room in the ledger for the key of the call. -/
structure Crowded (g : Guard) (l : Ledger) (method : Method) (arguments : List Json)
    (key : RetryKey) : Prop where
  keyed : g.keyOf method arguments = some key
  missing : l.get? key.key = none
  full : l.live.capacity ≤ l.live.size

theorem executor_recoveringBy (g : Guard) (r : Option Recoverer) :
    (g.recoveringBy r).terms.executor = g.terms.executor := by cases g <;> rfl

theorem Crowded.recoveringBy {l : Ledger} {method : Method} {arguments : List Json}
    (h : g.Crowded l method arguments key) (r : Option Recoverer) :
    (g.recoveringBy r).Crowded l method arguments key :=
  ⟨by rw [keyOf_recoveringBy]; exact h.keyed, h.missing, h.full⟩

/-- The session when there was no room for a key: the clock has been read twice. -/
abbrev turnedAway (s : Session ι γ) (i : Nat) : Session ι γ :=
  Execution.asked s i (s.ledgers.get i) []

theorem Crowded.invoke (call : Call ι γ) (he : g.terms.executor = .attempting i)
    (h : g.Crowded (s.ledgers.get i) call.method call.arguments key) (patience : Nat) :
    (g.invoke patience call).Returns s (.error (.contextsFull (s.ledgers.get i).live.capacity))
      (turnedAway s i) := by
  rw [invoke_keyed he h.keyed]
  exact Execution.full_returns (Ledger.ask_eq_full.mpr ⟨h.missing, h.full, rfl, rfl, rfl⟩)

/-- A call under a guard is attended to, unless there is no room for its key. -/
theorem invoke_attended (he : g.terms.executor = .attempting i) {patience : Nat}
    (ht : (g.invoke patience call).Returns s result t) :
    result.Attended ∨ ∃ key, g.Crowded (s.ledgers.get i) call.method call.arguments key ∧
      result = .error (.contextsFull (s.ledgers.get i).live.capacity) ∧ t = turnedAway s i := by
  cases hkey : g.keyOf call.method call.arguments with
  | none => exact .inl (invoke_unkeyed_attended he hkey patience s result t ht)
  | some key =>
    rw [invoke_keyed he hkey] at ht
    rcases Execution.stateful_attended ht with hattended | ⟨capacity, l, events, ha, hr, rfl⟩
    · exact .inl hattended
    · obtain ⟨hmissing, hfull, rfl, rfl, rfl⟩ := Ledger.ask_eq_full.mp ha
      exact .inr ⟨key, ⟨hkey, hmissing, hfull⟩, hr, rfl⟩

end Guard

namespace Dispatcher

variable {d : Dispatcher} {m : Method} {target : Target} {s t u : Session ι γ} {call : Call ι γ}
  {patience : Nat} {intercept : ι → Call ι γ → Action ι γ Result}

/-! ## What resolving a method does -/

/-- Nothing has changed but what is known of methods, the ledgers and the clock, and no handler has
recovered. -/
structure Idle (s t : Session ι γ) : Prop where
  frame : t = { s with
    clock := t.clock
    ledgers := t.ledgers
    resolved := t.resolved
    lookups := t.lookups
    made := t.made
    events := t.events }
  ledgers : ∀ j, t.ledgers.get j = s.ledgers.get j
  reports : ∃ es, t.events.toList = s.events.toList ++ es ∧
    ∀ m handler, Event.recovering m handler ∉ es

theorem Idle.turnedAway (h : Idle s u) (i : Nat) : Idle s (Guard.turnedAway u i) where
  frame := by
    conv_lhs => rw [h.frame]
    rfl
  ledgers j := by
    refine Eq.trans ?_ (h.ledgers j)
    change (u.ledgers.set i (u.ledgers.get i)).get j = _
    rw [Shelf.get_set]
    split
    · next hj => rw [hj]
    · rfl
  reports := by
    obtain ⟨es, hes, hnone⟩ := h.reports
    refine ⟨es, ?_, hnone⟩
    change (u.events ++ ([] : List Event)).toList = _
    simpa using hes

theorem recovering_notMem_locate (source : HandlerSource) (target : Target) (m m' : Method)
    (handler : String) :
    Event.recovering m' handler ∉ (Recoverer.locate source target m).2 := by
  unfold Recoverer.locate
  cases target.native with
  | some run => simp
  | none => cases source target.typeName <;> simp

theorem recovering_notMem_fresh (d : Dispatcher) (registry : Registry ι) (m : Method)
    (target : Target) (m' : Method) (handler : String) :
    Event.recovering m' handler ∉ (d.resolveFresh registry m target).events := by
  have hguard (retry : RetrySettings) (circuit : Option CircuitSettings) :
      (d.guardFor m target retry circuit).2 = (Recoverer.locate d.handlers target m).2 := by
    unfold guardFor
    cases retry.stateful <;> cases circuit <;> rfl
  unfold resolveFresh
  cases d.settings.retry m with
  | none => simp
  | some retry =>
    unfold strategyFor
    dsimp only
    split
    · split <;> simp
    · split
      · simp [hguard, recovering_notMem_locate]
      · simp [hguard, recovering_notMem_locate]

/-- Resolving a method changes nothing but what is known of methods. -/
theorem resolve_idle {outcome : Except CallError (Resolved ι)}
    (h : (d.resolve m target).Returns s outcome t) :
    Idle s t ∧ t.clock = s.clock ∧ t.ledgers = s.ledgers := by
  cases hk : d.kept? s.resolved m with
  | some known =>
    obtain ⟨-, rfl⟩ := h.unique (d.resolve_reused hk target)
    exact ⟨⟨rfl, fun _ => rfl, [.strategyReused m], by simp, by simp⟩, rfl, rfl⟩
  | none =>
    obtain ⟨-, rfl⟩ := h.unique (d.resolve_made hk target)
    exact ⟨⟨rfl, fun _ => rfl, _, by simp [resolving],
      d.recovering_notMem_fresh (s.registries.get d.registry) m target⟩, rfl, rfl⟩

theorem Chosen.error_isConfiguration {registry : Registry ι} {e : CallError}
    (h : d.Chosen registry m target (.error e)) : e.isConfiguration = true := by
  cases h <;> rfl

/-- An error of resolving is about the settings, and leaves what is kept as it was. -/
theorem resolve_error {e : CallError} (h : (d.resolve m target).Returns s (.error e) t) :
    e.isConfiguration = true ∧ ∀ j, t.resolved.get j = s.resolved.get j := by
  cases hk : d.kept? s.resolved m with
  | some known => cases (h.unique (d.resolve_reused hk target)).1
  | none =>
    obtain ⟨he, rfl⟩ := h.unique (d.resolve_made hk target)
    cases ho : (d.resolveFresh (s.registries.get d.registry) m target).outcome with
    | ok strategy => rw [ho] at he; cases he
    | error e' =>
      rw [ho] at he
      cases he
      refine ⟨(chosen_iff.mp ho).error_isConfiguration, fun j => ?_⟩
      unfold resolving
      dsimp only
      rw [ho, Shelf.get_set]
      split
      · next hj => rw [hj]
      · rfl

/-- **Every guard that a dispatcher keeps, whatever has been asked of it, is of its own making.** -/
theorem History.own {cs : List (Consultation ι)} (h : d.History cs s) : d.Own s.resolved := by
  induction h with
  | start hempty =>
    intro m n g hk
    unfold kept? at hk
    rw [hempty] at hk
    cases hk
  | apart _ hkept _ _ ih =>
    intro m n g hk
    unfold kept? at hk
    rw [hkept] at hk
    exact ih m n g hk
  | @asks cs s t m target outcome _ hasked ih =>
    obtain ⟨outcome', t', ht', -, hlearns, -⟩ := d.resolve_learns m target s
    obtain ⟨-, rfl⟩ := hasked.unique ht'
    exact ih.learns hlearns

theorem resolve_guarded_iff {g : Guard} : d.Through s.resolved m target g ↔
    ∃ n u, (d.resolve m target).Returns s (.ok ⟨n, .guarded g⟩) u := by
  obtain ⟨outcome, t, ht, hthrough, -⟩ := d.resolve_learns m target s
  rw [← hthrough]
  constructor
  · rintro ⟨n, rfl⟩
    exact ⟨n, t, ht⟩
  · rintro ⟨n, u, hu⟩
    exact ⟨n, (ht.unique hu).1⟩

/-! ## What a dispatch does -/

/-- The method is not left to an interceptor. -/
def Unintercepted (d : Dispatcher) (m : Method) (target : Target) (s : Session ι γ) : Prop :=
  ∀ n name x u, ¬ (d.resolve m target).Returns s (.ok ⟨n, .explicit name x⟩) u

/-- How a dispatch ends: attended to, with the error of resolving its method, or turned away by the
guard that it goes through. -/
inductive Ending (d : Dispatcher) (i : Nat) (call : Call ι γ) (s : Session ι γ) (result : Result)
    (t : Session ι γ) : Prop where
  | attended : result.Attended → Ending d i call s result t
  | unresolved (e : CallError) : (d.resolve call.method call.target).Returns s (.error e) t →
      result = .error e → Ending d i call s result t
  | crowded (n : Nat) (g : Guard) (key : RetryKey) (u : Session ι γ) :
      (d.resolve call.method call.target).Returns s (.ok ⟨n, .guarded g⟩) u →
      g.Crowded (s.ledgers.get i) call.method call.arguments key →
      result = .error (.contextsFull (s.ledgers.get i).live.capacity) →
      t = Guard.turnedAway u i → Ending d i call s result t

variable {i : Nat} {result : Result}

theorem executor_of_resolve (hexec : d.executor = .attempting i) (hown : d.Own s.resolved) {n : Nat}
    {g : Guard} (h : (d.resolve m target).Returns s (.ok ⟨n, .guarded g⟩) t) :
    g.terms.executor = .attempting i := by
  obtain ⟨origin, horigin⟩ := hown.through (resolve_guarded_iff.mpr ⟨n, t, h⟩)
  exact (guardOf?_makes horigin).executor.trans hexec

theorem dispatch_ending (hexec : d.executor = .attempting i) (hown : d.Own s.resolved)
    (hx : d.Unintercepted call.method call.target s)
    (ht : (d.dispatch patience intercept call).Returns s result t) :
    d.Ending i call s result t := by
  obtain ⟨outcome, u, hu, ht⟩ := ht.of_bind
  cases outcome with
  | error e =>
    cases ht
    exact .unresolved e hu rfl
  | ok known =>
    obtain ⟨n, strategy⟩ := known
    cases strategy with
    | none => exact .attended (Execution.once_attended call u result t ht)
    | explicit name x => exact absurd hu (hx n name x u)
    | guarded g =>
      have hledgers : u.ledgers = s.ledgers := (resolve_idle hu).2.2
      rcases Guard.invoke_attended (executor_of_resolve hexec hown hu) ht with
        hattended | ⟨key, hcrowded, hr, rfl⟩
      · exact .attended hattended
      · rw [hledgers] at hcrowded hr
        exact .crowded n g key u hu hcrowded hr rfl

theorem unresolved_of_isConfiguration (hexec : d.executor = .attempting i) (hown : d.Own s.resolved)
    (hx : d.Unintercepted call.method call.target s) {e : CallError}
    (ht : (d.dispatch patience intercept call).Returns s (.error e) t)
    (he : e.isConfiguration = true) :
    (d.resolve call.method call.target).Returns s (.error e) t := by
  cases dispatch_ending hexec hown hx ht with
  | attended hattended =>
    rw [(hattended e rfl).1] at he
    cases he
  | unresolved e' hr heq =>
    cases heq
    exact hr
  | crowded n g key u _ _ heq =>
    cases heq
    cases he

theorem crowded_of_contextsFull (hexec : d.executor = .attempting i) (hown : d.Own s.resolved)
    (hx : d.Unintercepted call.method call.target s) {capacity : Nat}
    (ht : (d.dispatch patience intercept call).Returns s (.error (.contextsFull capacity)) t) :
    capacity = (s.ledgers.get i).live.capacity ∧ ∃ n g key u,
      (d.resolve call.method call.target).Returns s (.ok ⟨n, .guarded g⟩) u ∧
      g.Crowded (s.ledgers.get i) call.method call.arguments key ∧ t = Guard.turnedAway u i := by
  cases dispatch_ending hexec hown hx ht with
  | attended hattended => exact absurd rfl ((hattended _ rfl).2 capacity)
  | unresolved e hr heq =>
    cases heq
    cases (resolve_error hr).1
  | crowded n g key u hr hcrowded heq htu =>
    cases heq
    exact ⟨rfl, n, g, key, u, hr, hcrowded, htu⟩

/-- The dispatch ends with this error before anything is done for the call. -/
structure Declined (d : Dispatcher) (patience : Nat)
    (intercept : ι → Call ι γ → Action ι γ Result) (call : Call ι γ) (s : Session ι γ)
    (e : CallError) (t : Session ι γ) : Prop extends Idle s t where
  /-- It ends so whatever the call would have done, also where the call would not have ended. -/
  uncalled : ∀ proceed,
    (d.dispatch patience intercept { call with proceed := proceed }).Returns s (.error e) t
  /-- If there is a guard, the call ends so under it with any other recovery. -/
  unrecovered : ∀ n g u, (d.resolve call.method call.target).Returns s (.ok ⟨n, .guarded g⟩) u →
    ∀ r proceed, ((g.recoveringBy r).invoke patience { call with proceed := proceed }).Returns u
      (.error e) t

theorem declined_of_unresolved {e : CallError}
    (h : (d.resolve call.method call.target).Returns s (.error e) t) :
    d.Declined patience intercept call s e t where
  toIdle := (resolve_idle h).1
  uncalled proceed := h.bind rfl
  unrecovered n g u hu := by cases (h.unique hu).1

theorem declined_of_crowded (hexec : d.executor = .attempting i) (hown : d.Own s.resolved) {n : Nat}
    {g : Guard} {key : RetryKey}
    (h : (d.resolve call.method call.target).Returns s (.ok ⟨n, .guarded g⟩) u)
    (hcrowded : g.Crowded (s.ledgers.get i) call.method call.arguments key) :
    d.Declined patience intercept call s (.contextsFull (s.ledgers.get i).live.capacity)
      (Guard.turnedAway u i) := by
  have he := executor_of_resolve hexec hown h
  obtain ⟨hidle, -, hledgers⟩ := resolve_idle h
  rw [← hledgers] at hcrowded ⊢
  refine ⟨hidle.turnedAway i, fun proceed => ?_, fun n' g' u' hu' r proceed => ?_⟩
  · exact h.bind (Guard.Crowded.invoke { call with proceed := proceed } he hcrowded patience)
  · obtain ⟨hsame, rfl⟩ := h.unique hu'
    cases hsame
    exact Guard.Crowded.invoke { call with proceed := proceed }
      ((g.executor_recoveringBy r).trans he) (hcrowded.recoveringBy r) patience

/-- **Errors of the settings and of the capacity are without effect.** Whatever has been asked of a
dispatcher before: where a dispatch that is not left to an interceptor ends with an error of the
settings, or for want of room, the call has not been made, nothing has recovered or paused, and all
ledgers are as they were; after an error of the settings the strategies kept are too. There is no
room just where the guard that the call goes through gives it a key, the key is not stored, and as
many are stored as the capacity allows. -/
theorem declined_without_effect (patience : Nat) (intercept : ι → Call ι γ → Action ι γ Result)
    (call : Call ι γ) (hexec : d.executor = .attempting i) {cs : List (Consultation ι)}
    (h : d.History cs s) (hx : d.Unintercepted call.method call.target s) :
    (∀ e t, (d.dispatch patience intercept call).Returns s (.error e) t → e.isConfiguration = true →
      d.Declined patience intercept call s e t ∧ ∀ j, t.resolved.get j = s.resolved.get j) ∧
    (∀ n t, (d.dispatch patience intercept call).Returns s (.error (.contextsFull n)) t →
      d.Declined patience intercept call s (.contextsFull n) t ∧
        n = (s.ledgers.get i).live.capacity) ∧
    ((∃ n t, (d.dispatch patience intercept call).Returns s (.error (.contextsFull n)) t) ↔
      ∃ g key, d.Through s.resolved call.method call.target g ∧
        g.Crowded (s.ledgers.get i) call.method call.arguments key) := by
  have hown := h.own
  refine ⟨fun e t ht he => ?_, fun n t ht => ?_, ?_⟩
  · have hr := unresolved_of_isConfiguration hexec hown hx ht he
    exact ⟨declined_of_unresolved hr, (resolve_error hr).2⟩
  · obtain ⟨rfl, n', g, key, u, hr, hcrowded, rfl⟩ := crowded_of_contextsFull hexec hown hx ht
    exact ⟨declined_of_crowded hexec hown hr hcrowded, rfl⟩
  · constructor
    · rintro ⟨n, t, ht⟩
      obtain ⟨-, n', g, key, u, hr, hcrowded, -⟩ := crowded_of_contextsFull hexec hown hx ht
      exact ⟨g, key, resolve_guarded_iff.mpr ⟨n', u, hr⟩, hcrowded⟩
    · rintro ⟨g, key, hg, hcrowded⟩
      obtain ⟨n, u, hr⟩ := resolve_guarded_iff.mp hg
      have hdeclined : d.Declined patience intercept call s _ _ :=
        declined_of_crowded hexec hown hr hcrowded
      exact ⟨_, _, hdeclined.uncalled call.proceed⟩

/-- No key has room, and the call would never end. -/
def crowdedSession : Session Unit Unit :=
  { Session.begin () with ledgers := Shelf.empty.set 0 (Ledger.empty 0) }

def restocking : Call Unit Unit := ⟨restock, ⟨"Stock", none⟩, [], failure⟩

/-- No settings of a circuit override the retry settings here. -/
def fruitless : Dispatcher :=
  plain [.onMethod restock { RetrySettings.statefulDefault with maxAttempts := 0 }]

/-- The settings are looked at before the room for the key. -/
theorem declined_without_effect_restock :
    (∃ t, (restocker.dispatch 0 (fun _ call => call.once) restocking).Returns crowdedSession
        (.error (.contextsFull 0)) t ∧
      restocker.Declined 0 (fun _ call => call.once) restocking crowdedSession (.contextsFull 0)
        t) ∧
    ∃ t, (fruitless.dispatch 0 (fun _ call => call.once) restocking).Returns crowdedSession
        (.error (.invalidSettings (.attemptLimit 0))) t ∧
      fruitless.Declined 0 (fun _ call => call.once) restocking crowdedSession
        (.invalidSettings (.attemptLimit 0)) t := by
  constructor
  · have hx : restocker.Unintercepted restocking.method restocking.target crowdedSession := by
      intro n name x u hu
      cases (hu.unique (restocker.resolve_made rfl _)).1
    obtain ⟨-, hfull, hroom⟩ := declined_without_effect 0 (fun _ call => call.once) restocking
      (show restocker.executor = .attempting 0 from rfl) (.start rfl) hx
    obtain ⟨n, t, ht⟩ := hroom.mpr
      ⟨_, ⟨"circuit:stock", false⟩, .inr ⟨rfl, rfl⟩, rfl, rfl, Nat.le_refl 0⟩
    obtain ⟨hdeclined, rfl⟩ := hfull n t ht
    exact ⟨t, ht, hdeclined⟩
  · have hmade := fruitless.resolve_made (s := crowdedSession) (m := restock) rfl ⟨"Stock", none⟩
    have hx : fruitless.Unintercepted restocking.method restocking.target crowdedSession := by
      intro n name x u hu
      cases (hu.unique hmade).1
    have ht : (fruitless.dispatch 0 (fun _ call => call.once) restocking).Returns crowdedSession
        (.error (.invalidSettings (.attemptLimit 0))) _ := hmade.bind rfl
    exact ⟨_, ht, ((declined_without_effect 0 (fun _ call => call.once) restocking
      (show fruitless.executor = .attempting 0 from rfl) (.start rfl) hx).1 _ _ ht rfl).1⟩

end Dispatcher

end CallGuard
