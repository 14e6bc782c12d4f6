import CallGuard.Dispatcher
import CallGuard.Proofs.Served
import CallGuard.Proofs.Stateless
/-! # The guards that a dispatcher makes, and dispatches through them

The guard of a method is made of the settings of the method and of the target of one dispatch; the
target decides about the recovery and about nothing else. A dispatch goes through the guard that is
kept for its method, and makes one of its own target only where nothing is kept. -/

namespace CallGuard

variable {ι γ : Type}

namespace Guard

/-- The same guard with another recovery. -/
def recoveringBy (g : Guard) (r : Option Recoverer) : Guard :=
  match g with
  | stateless terms => stateless { terms with recoverer := r }
  | stateful terms rule => stateful { terms with recoverer := r } rule
  | circuit terms label ledger => circuit { terms with recoverer := r } label ledger

/-- The key of a call under the guard, if it has one. -/
def keyOf (g : Guard) (method : Method) (arguments : List Json) : Option RetryKey :=
  match g with
  | stateless _ => none
  | stateful _ rule => rule.key? method arguments
  | circuit _ label _ => some ⟨circuitKey label, false⟩

/-- The policy is that of the kind of guard: a circuit with the label, or else an attempt limit. -/
def Limited (g : Guard) : Prop :=
  match g with
  | stateless terms => ∃ limit, terms.policy = .attempts limit
  | stateful terms _ => ∃ limit, terms.policy = .attempts limit
  | circuit terms label _ => ∃ c, terms.policy = .circuit c ∧ c.label = label

/-- What a call under a guard comes to. -/
inductive Answers (g : Guard) (method : Method) (arguments : List Json) (v : Visit) : Prop where
  | stateless (terms : Terms) (limit : AttemptLimit) : g = .stateless terms →
      terms.policy = .attempts limit → v.pauses = [] →
      Attempted terms limit arguments 0 [] v.attempts v.result → Answers g method arguments v
  /-- Without a key it is made once, outside of all retry. -/
  | unkeyed (terms : Terms) (rule : KeyRule) (outcome : Except Failure Json) (ended : Nat) :
      g = .stateful terms rule → rule.key? method arguments = none →
      v.attempts = [⟨[], outcome, ended⟩] → v.pauses = [] →
      v.result = outcome.mapError .failed → Answers g method arguments v
  | keyed (key : RetryKey) : g.keyOf method arguments = some key →
      Answered g.terms arguments (v.facing key.refresh) → Answers g method arguments v

section Calls

variable {g : Guard} {i : Nat} {call : Call ι γ} {s : Session ι (Notes γ)}

/-- **A call under a guard ends as its terms say.** What it leaves of its own key is known as well
if the call leaves the key alone while it is made. -/
theorem invoke_answers (he : g.terms.executor = .attempting i) (hl : g.Limited)
    (hs : (s.ledgers.get i).Sound) (hg : s.guest.attempts = []) (hm : s.guest.mark = s.pauses.size)
    (hend : call.proceed.Ends) (patience : Nat) {key : String}
    (hkey : ∀ k, g.keyOf call.method call.arguments = some k → k.key = key) :
    ∃ result t, (g.invoke patience call.watched).Returns s result t ∧
      g.Answers call.method call.arguments (Visit.of i key s t result) ∧
      (call.proceed.Preserves (fun s => (s.ledgers.get i).Sound) → (t.ledgers.get i).Sound) ∧
      ∀ k, g.keyOf call.method call.arguments = some k → call.proceed.Spares i k.key →
        Served g.terms call.arguments ((Visit.of i key s t result).facing k.refresh) := by
  have hwithkey : ∀ k, g.keyOf call.method call.arguments = some k →
      g.invoke patience call.watched = Execution.stateful i g.terms k call.watched →
      ∃ result t, (g.invoke patience call.watched).Returns s result t ∧
        g.Answers call.method call.arguments (Visit.of i key s t result) ∧
        (call.proceed.Preserves (fun s => (s.ledgers.get i).Sound) → (t.ledgers.get i).Sound) ∧
        ∀ k, g.keyOf call.method call.arguments = some k → call.proceed.Spares i k.key →
          Served g.terms call.arguments ((Visit.of i key s t result).facing k.refresh) := by
    intro k hk hrun
    obtain ⟨result, t, ht, hanswered, hsound, hserved⟩ :=
      Execution.stateful_answered g.terms k hs hg hm hend
    rw [hkey k hk] at hanswered hserved
    refine ⟨result, t, hrun ▸ ht, .keyed k hk hanswered, hsound, fun k' hk' hspare => ?_⟩
    obtain rfl : k = k' := Option.some.inj (hk.symm.trans hk')
    exact hserved (hkey k hk ▸ hspare)
  cases g with
  | stateless terms =>
    obtain ⟨limit, hp⟩ := hl
    obtain ⟨result, t, ht, hpau, hatt⟩ := Execution.stateless_attempted hp hend hg hm patience
    have hrun : ((Guard.stateless terms).invoke patience call.watched).Returns s result t := by
      change (Execution.run patience ⟨terms, none⟩ call.watched).Returns s result t
      rw [Execution.run_unkeyed (show terms.executor = .attempting i from he)]
      exact ht
    refine ⟨result, t, hrun, .stateless terms limit rfl hp hpau hatt, fun hcall => ?_, nofun⟩
    exact Execution.stateless_preserves (Action.indifferent_ledgers fun l => (l.get i).Sound)
      (Call.watched_preserves hend hcall) patience s result t ht hs
  | stateful terms rule =>
    cases hk : rule.key? call.method call.arguments with
    | some k =>
      have hwatched : rule.key? call.watched.method call.watched.arguments = some k := hk
      refine hwithkey k hk ?_
      unfold invoke
      dsimp only
      rw [hwatched]
      exact Execution.run_keyed he patience k _
    | none =>
      let missed : Session ι (Notes γ) :=
        { s with events := s.events ++ [Event.keyMissing call.method] }
      obtain ⟨outcome, t, ht⟩ := hend (missed.withGuest missed.guest.own)
      have hrun : ((Guard.stateful terms rule).invoke patience call.watched).Returns s
          (outcome.mapError .failed) (t.withGuest ⟨t.guest, s.guest.attempts ++
            [⟨s.pauses.toList.drop s.guest.mark, outcome, t.clock.now⟩], t.pauses.size⟩) := by
        have hwatched : rule.key? call.watched.method call.watched.arguments = none := hk
        unfold invoke
        dsimp only
        rw [hwatched]
        exact Action.Returns.bind (a := ()) (t := missed) rfl
          (Execution.once_returns (Call.watched_returns ht))
      refine ⟨_, _, hrun, .unkeyed terms rule outcome t.clock.now rfl hk ?_ ?_ rfl,
        fun hcall => hcall _ outcome t ht hs, fun k hk' => ?_⟩
      · change s.guest.attempts ++ [⟨s.pauses.toList.drop s.guest.mark, outcome, _⟩] = _
        rw [hg, hm, ← Array.length_toList, List.drop_length]; rfl
      · change t.pauses.toList.drop t.pauses.size = []
        rw [← Array.length_toList, List.drop_length]
      · exact absurd (hk.symm.trans hk') nofun
  | circuit terms label ledger => exact hwithkey _ rfl (Execution.run_keyed he patience _ _)

/-- A call under a guard preserves what it preserves while it is made. -/
theorem invoke_preserves {P : Session ι γ → Prop} (hi : Action.Indifferent P)
    (hl : ∀ i, Action.Disregards i P) (hcall : call.proceed.Preserves P) (g : Guard)
    (patience : Nat) : (g.invoke patience call).Preserves P := by
  cases g with
  | stateless terms => exact Execution.run_preserves hi hl hcall patience
  | stateful terms rule =>
    unfold invoke
    dsimp only
    split
    · exact Execution.run_preserves hi hl hcall patience
    · exact (hi.emit _).bind fun _ => Execution.once_preserves hcall
  | circuit terms label ledger => exact Execution.run_preserves hi hl hcall patience

/-- A call under a guard leaves all keys but its own alone, if it does so while it is made. -/
theorem invoke_spares (he : g.terms.executor = .attempting i) {k : String}
    (hk : ∀ key, g.keyOf call.method call.arguments = some key → k ≠ key.key)
    (hend : call.proceed.Ends) (hspare : call.proceed.Spares i k) (patience : Nat) :
    (g.invoke patience call).Spares i k := by
  have hsteady (c : Option (SequenceId × Context)) : Action.Indifferent fun s : Session ι γ =>
      (s.ledgers.get i).Sound ∧ (s.ledgers.get i).current? k = c :=
    Action.indifferent_ledgers fun l => (l.get i).Sound ∧ (l.get i).current? k = c
  rw [Action.spares_iff] at hspare
  cases g with
  | stateless terms =>
    refine Action.spares_iff.mpr fun c => ?_
    change (Execution.run patience ⟨terms, none⟩ call).Preserves _
    rw [Execution.run_unkeyed (show terms.executor = .attempting i from he)]
    exact Execution.stateless_preserves (hsteady c) (hspare c) patience
  | stateful terms rule =>
    unfold invoke
    dsimp only
    split
    · next key hkey =>
      have he : terms.executor = .attempting i := he
      rw [Execution.run_keyed he]
      exact Execution.stateful_spares terms key (hk key hkey) hend (Action.spares_iff.mpr hspare)
    · exact Action.spares_iff.mpr fun c =>
        ((hsteady c).emit _).bind fun _ => Execution.once_preserves (hspare c)
  | circuit terms label ledger =>
    have he : terms.executor = .attempting i := he
    change (Execution.run patience ⟨terms, some ⟨circuitKey label, false⟩⟩ call).Spares i k
    rw [Execution.run_keyed he]
    exact Execution.stateful_spares terms _ (hk _ rfl) hend (Action.spares_iff.mpr hspare)

end Calls

end Guard

namespace Dispatcher

/-- The guard made for a method by a dispatch on a target, if one is made. -/
def guardOf? (d : Dispatcher) (m : Method) (target : Target) : Option Guard :=
  match d.settings.retry m with
  | none => none
  | some retry =>
    if retry.interceptorName = none then
      (d.guardFor m target retry
        (if retry.stateful then d.settings.circuit m else none)).1.toOption
    else none

/-- What a dispatcher keeps for a method. -/
def kept? (d : Dispatcher) (known : Known ι) (m : Method) : Option (Resolved ι) :=
  (known.get d.resolved).get? m

variable {d : Dispatcher} {m : Method} {target : Target} {g : Guard}

theorem resolveFresh_guarded (h : d.guardOf? m target = some g) (registry : Registry ι) :
    (d.resolveFresh registry m target).outcome = .ok (.guarded g) := by
  unfold guardOf? at h
  unfold resolveFresh
  cases hretry : d.settings.retry m with
  | none => rw [hretry] at h; cases h
  | some retry =>
    rw [hretry] at h
    dsimp only at h ⊢
    split at h
    · next hname =>
      unfold strategyFor
      simp only [hname]
      cases hg : (d.guardFor m target retry
        (if retry.stateful then d.settings.circuit m else none)).1 with
      | error e => rw [hg] at h; cases h
      | ok g' =>
        rw [hg] at h
        cases h
        rfl
    · cases h

theorem guardOf?_of_fresh {registry : Registry ι}
    (h : (d.resolveFresh registry m target).outcome = .ok (.guarded g)) :
    d.guardOf? m target = some g := by
  unfold resolveFresh at h
  unfold guardOf?
  cases hretry : d.settings.retry m with
  | none => rw [hretry] at h; cases h
  | some retry =>
    rw [hretry] at h
    unfold strategyFor at h
    cases hname : retry.interceptorName with
    | some name =>
      simp only [hname] at h
      cases hr : registry.resolve name <;> rw [hr] at h <;> cases h
    | none =>
      simp only [hname] at h
      dsimp only
      rw [if_pos hname]
      cases hg : (d.guardFor m target retry
        (if retry.stateful then d.settings.circuit m else none)).1 with
      | error e => rw [hg] at h; cases h
      | ok g' => rw [hg] at h; cases h; rfl

/-- What a dispatch on this target makes for a method. -/
structure Makes (d : Dispatcher) (m : Method) (target : Target) (g : Guard) : Prop where
  executor : g.terms.executor = d.executor
  recoverer : g.terms.recoverer = (Recoverer.locate d.handlers target m).1
  keys : ∀ terms rule, g = .stateful terms rule → rule = d.keys
  limited : g.Limited

theorem attemptGuard_makes {retry : RetrySettings}
    (h : d.attemptGuard retry (Recoverer.locate d.handlers target m).1 = .ok g) :
    d.Makes m target g := by
  unfold attemptGuard at h
  generalize Backoff.ofSettings retry.backoff = backoff at h
  cases hlimit : limitFor retry.toAttemptSettings with
  | error e => rw [hlimit] at h; cases h
  | ok limit =>
    rw [hlimit] at h
    cases hs : retry.stateful with
    | true =>
      rw [hs] at h
      cases h
      exact ⟨rfl, rfl, fun _ _ hg => by cases hg; rfl, limit, rfl⟩
    | false =>
      rw [hs] at h
      cases h
      exact ⟨rfl, rfl, fun _ _ hg => (by cases hg), limit, rfl⟩

theorem circuitGuard_makes {circuit : CircuitSettings}
    (h : d.circuitGuard m circuit (Recoverer.locate d.handlers target m).1 = .ok g) :
    d.Makes m target g := by
  unfold circuitGuard at h
  cases hlimit : limitFor circuit.toAttemptSettings with
  | error e => rw [hlimit] at h; cases h
  | ok limit =>
    rw [hlimit] at h
    cases h
    exact ⟨rfl, rfl, fun _ _ hg => (by cases hg), _, rfl, rfl⟩

theorem attemptGuard_recovering (d : Dispatcher) (retry : RetrySettings) (r r' : Option Recoverer) :
    d.attemptGuard retry r = (d.attemptGuard retry r').map (·.recoveringBy r) := by
  unfold attemptGuard
  cases limitFor retry.toAttemptSettings with
  | error e => rfl
  | ok limit => cases retry.stateful <;> rfl

theorem circuitGuard_recovering (d : Dispatcher) (m : Method) (circuit : CircuitSettings)
    (r r' : Option Recoverer) :
    d.circuitGuard m circuit r = (d.circuitGuard m circuit r').map (·.recoveringBy r) := by
  unfold circuitGuard
  cases limitFor circuit.toAttemptSettings <;> rfl

theorem guardFor_guard (d : Dispatcher) (m : Method) (target : Target) (retry : RetrySettings)
    (circuit : Option CircuitSettings) :
    (d.guardFor m target retry circuit).1 =
      match retry.stateful, circuit with
      | true, some c => d.circuitGuard m c (Recoverer.locate d.handlers target m).1
      | _, _ => d.attemptGuard retry (Recoverer.locate d.handlers target m).1 := by
  unfold guardFor
  cases retry.stateful <;> cases circuit <;> rfl

theorem guardOf?_makes (h : d.guardOf? m target = some g) : d.Makes m target g := by
  unfold guardOf? at h
  split at h
  · cases h
  · next retry _ =>
    split at h
    · cases hg : (d.guardFor m target retry
        (if retry.stateful then d.settings.circuit m else none)).1 with
      | error e => rw [hg] at h; cases h
      | ok g' =>
        rw [hg] at h
        cases h
        rw [guardFor_guard] at hg
        split at hg
        · exact circuitGuard_makes hg
        · exact attemptGuard_makes hg
    · cases h

/-- **The target of a dispatch decides about the recovery alone.** -/
theorem guardOf?_recovering (d : Dispatcher) (m : Method) (target target' : Target) :
    d.guardOf? m target = (d.guardOf? m target').map
      (·.recoveringBy (Recoverer.locate d.handlers target m).1) := by
  have hmap (x : Except CallError Guard) (f : Guard → Guard) :
      x.toOption.map f = (x.map f).toOption := by cases x <;> rfl
  unfold guardOf?
  cases d.settings.retry m with
  | none => rfl
  | some retry =>
    dsimp only
    split
    · rw [hmap, guardFor_guard, guardFor_guard]
      congr 1
      split
      · exact d.circuitGuard_recovering m _ _ _
      · exact d.attemptGuard_recovering retry _ _
    · rfl

/-! ## Resolving a method -/

/-- What is kept is given again. -/
theorem resolve_reused {s : Session ι γ} {known : Resolved ι}
    (h : d.kept? s.resolved m = some known) (target : Target) :
    (d.resolve m target).Returns s (.ok known)
      { s with events := s.events ++ [Event.strategyReused m] } := by
  have hknown : (s.resolved.get d.resolved).get? m = some known := h
  simp only [Action.Returns, resolve, StateT.run_bind, StateT.run_get, Option.pure_def,
    Option.bind_eq_bind, Option.bind_some, remember_known hknown]
  rfl

/-- The session once a method has been resolved for which nothing was kept. -/
def resolving (d : Dispatcher) (m : Method) (target : Target) (s : Session ι γ) : Session ι γ :=
  let resolution := d.resolveFresh (s.registries.get d.registry) m target
  { s with
    made := s.made + 1
    resolved := s.resolved.set d.resolved <|
      match resolution.outcome with
      | .ok strategy => (s.resolved.get d.resolved).insert m ⟨s.made, strategy⟩
      | .error _ => s.resolved.get d.resolved
    lookups := s.lookups.modify d.lookups (countLookups resolution)
    events := s.events ++ resolution.events }

/-- Where nothing is kept a strategy is made, with the next number. -/
theorem resolve_made {s : Session ι γ} (h : d.kept? s.resolved m = none) (target : Target) :
    (d.resolve m target).Returns s
      ((d.resolveFresh (s.registries.get d.registry) m target).outcome.map (⟨s.made, ·⟩))
      (d.resolving m target s) := by
  have hnone : (s.resolved.get d.resolved).get? m = none := h
  simp only [Action.Returns, resolve, resolving, StateT.run_bind, StateT.run_get, Option.pure_def,
    Option.bind_eq_bind, Option.bind_some]
  cases (d.resolveFresh (s.registries.get d.registry) m target).outcome with
  | error e => rw [Except.map, remember_error hnone]; rfl
  | ok strategy => rw [Except.map, remember_ok hnone]; rfl

/-- What resolving a method comes to: what is kept for it, else what is made of it and then kept. It
touches nothing else that calls depend on. -/
theorem resolve_returns (d : Dispatcher) (m : Method) (target : Target) (s : Session ι γ) :
    ∃ outcome t, (d.resolve m target).Returns s outcome t ∧
      outcome = (match d.kept? s.resolved m with
        | some known => .ok known
        | none => (d.resolveFresh (s.registries.get d.registry) m target).outcome.map
            (⟨s.made, ·⟩)) ∧
      (∀ m', d.kept? t.resolved m' = if m' = m then outcome.toOption else d.kept? s.resolved m') ∧
      t.clock = s.clock ∧ t.ledgers = s.ledgers ∧ t.guest = s.guest ∧ t.pauses = s.pauses := by
  cases hk : d.kept? s.resolved m with
  | some known =>
    refine ⟨_, _, d.resolve_reused hk target, rfl, fun m' => ?_, rfl, rfl, rfl, rfl⟩
    split
    · next h => rw [h]; exact hk
    · rfl
  | none =>
    refine ⟨_, _, d.resolve_made hk target, rfl, fun m' => ?_, rfl, rfl, rfl, rfl⟩
    unfold kept? at hk ⊢
    change ((s.resolved.set d.resolved _).get d.resolved).get? m' = _
    rw [Shelf.get_set_self]
    cases (d.resolveFresh (s.registries.get d.registry) m target).outcome with
    | error e =>
      change (s.resolved.get d.resolved).get? m' = _
      split
      · next h => rw [h]; exact hk
      · rfl
    | ok strategy => exact Dict.get?_insert ..

/-- The guard that a dispatch goes through: that which is kept, or else a new one. -/
def Through (d : Dispatcher) (known : Known ι) (m : Method) (target : Target) (g : Guard) : Prop :=
  (∃ n, d.kept? known m = some ⟨n, .guarded g⟩) ∨
    d.kept? known m = none ∧ d.guardOf? m target = some g

theorem Through.unique {known : Known ι} {g' : Guard} (h : d.Through known m target g)
    (h' : d.Through known m target g') : g = g' := by
  rcases h with ⟨n, hn⟩ | ⟨hnone, hfresh⟩ <;> rcases h' with ⟨n', hn'⟩ | ⟨hnone', hfresh'⟩
  · rw [hn] at hn'; cases hn'; rfl
  · rw [hn] at hnone'; cases hnone'
  · rw [hnone] at hn'; cases hn'
  · exact Option.some.inj (hfresh.symm.trans hfresh')

/-- What is kept once a method is resolved: the guard that the dispatch goes through, if there is
one, and what was kept for the other methods. -/
structure Learns (d : Dispatcher) (known known' : Known ι) (m : Method) (target : Target) :
    Prop where
  through : ∀ g, (∃ n, d.kept? known' m = some ⟨n, .guarded g⟩) ↔ d.Through known m target g
  elsewhere : ∀ m', m' ≠ m → d.kept? known' m' = d.kept? known m'

theorem resolve_learns (d : Dispatcher) (m : Method) (target : Target) (s : Session ι γ) :
    ∃ outcome t, (d.resolve m target).Returns s outcome t ∧
      (∀ g, (∃ n, outcome = .ok ⟨n, .guarded g⟩) ↔ d.Through s.resolved m target g) ∧
      d.Learns s.resolved t.resolved m target ∧
      t.clock = s.clock ∧ t.ledgers = s.ledgers ∧ t.guest = s.guest ∧ t.pauses = s.pauses := by
  obtain ⟨outcome, t, ht, ho, hkept, hframe⟩ := d.resolve_returns m target s
  have hthrough : ∀ g, (∃ n, outcome = .ok ⟨n, .guarded g⟩) ↔ d.Through s.resolved m target g := by
    intro g
    unfold Through
    rw [ho]
    cases hk : d.kept? s.resolved m with
    | some known => simp
    | none =>
      cases hout : (d.resolveFresh (s.registries.get d.registry) m target).outcome with
      | error e =>
        refine ⟨fun ⟨n, hn⟩ => (by cases hn), ?_⟩
        rintro (⟨n, hn⟩ | ⟨-, hfresh⟩)
        · cases hn
        · rw [resolveFresh_guarded hfresh] at hout; cases hout
      | ok strategy =>
        constructor
        · rintro ⟨n, hn⟩
          cases hn
          exact .inr ⟨rfl, guardOf?_of_fresh hout⟩
        · rintro (⟨n, hn⟩ | ⟨-, hfresh⟩)
          · cases hn
          · rw [resolveFresh_guarded hfresh] at hout
            cases hout
            exact ⟨s.made, rfl⟩
  refine ⟨outcome, t, ht, hthrough, ⟨fun g => ?_, fun m' hm' => ?_⟩, hframe⟩
  · rw [← hthrough, hkept, if_pos rfl]
    cases outcome <;> simp [Except.toOption]
  · rw [hkept, if_neg hm']

/-! ## Dispatches -/

variable {s : Session ι γ} {call : Call ι γ}

/-- **A dispatch is a call under the guard that it goes through**, which is kept from then on. -/
theorem dispatch_through (patience : Nat) (intercept : ι → Call ι γ → Action ι γ Result)
    (h : d.Through s.resolved call.method call.target g) :
    ∃ u, d.Learns s.resolved u.resolved call.method call.target ∧
      u.clock = s.clock ∧ u.ledgers = s.ledgers ∧ u.guest = s.guest ∧ u.pauses = s.pauses ∧
      ∀ result t, (g.invoke patience call).Returns u result t →
        (d.dispatch patience intercept call).Returns s result t := by
  obtain ⟨outcome, u, hu, hthrough, hlearns, hframe⟩ := d.resolve_learns call.method call.target s
  obtain ⟨n, rfl⟩ := (hthrough g).mpr h
  exact ⟨u, hlearns, hframe.1, hframe.2.1, hframe.2.2.1, hframe.2.2.2,
    fun result t ht => hu.bind ht⟩

/-- **A dispatch without a guard** is an error, the call itself, or left to an interceptor. -/
theorem dispatch_unguarded (patience : Nat) (intercept : ι → Call ι γ → Action ι γ Result)
    (h : ∀ g, ¬ d.Through s.resolved call.method call.target g) :
    ∃ u act, d.Learns s.resolved u.resolved call.method call.target ∧
      u.clock = s.clock ∧ u.ledgers = s.ledgers ∧ u.guest = s.guest ∧ u.pauses = s.pauses ∧
      (act = call.once ∨ (∃ e, act = return .error e) ∨ ∃ x, act = intercept x call) ∧
      ∀ result t, act.Returns u result t →
        (d.dispatch patience intercept call).Returns s result t := by
  obtain ⟨outcome, u, hu, hthrough, hlearns, huc, hul, hug, hup⟩ :=
    d.resolve_learns call.method call.target s
  suffices hact : ∃ act : Action ι γ Result,
      (act = call.once ∨ (∃ e, act = return .error e) ∨ ∃ x, act = intercept x call) ∧
      ∀ result t, act.Returns u result t →
        (d.dispatch patience intercept call).Returns s result t by
    obtain ⟨act, hact⟩ := hact
    exact ⟨u, act, hlearns, huc, hul, hug, hup, hact⟩
  cases outcome with
  | error e => exact ⟨return .error e, .inr (.inl ⟨e, rfl⟩), fun result t ht => hu.bind ht⟩
  | ok known =>
    obtain ⟨n, strategy⟩ := known
    cases strategy with
    | none => exact ⟨call.once, .inl rfl, fun result t ht => hu.bind ht⟩
    | guarded g => exact absurd ((hthrough g).mp ⟨n, rfl⟩) (h g)
    | explicit name x =>
      exact ⟨intercept x call, .inr (.inr ⟨x, rfl⟩), fun result t ht => hu.bind ht⟩

/-- What a dispatch through a guard comes to, and what it leaves as it was. -/
structure Passes (d : Dispatcher) (i : Nat) (key : String) (g : Guard) (call : Call ι γ)
    (s : Session ι γ) (v : Visit) (t : Session ι γ) : Prop where
  answers : g.Answers call.method call.arguments v
  found : v.found = (s.ledgers.get i).get? key
  left : v.left = (t.ledgers.get i).get? key
  sound : call.proceed.Preserves (fun s => (s.ledgers.get i).Sound) → (t.ledgers.get i).Sound
  served : ∀ k, g.keyOf call.method call.arguments = some k → call.proceed.Spares i k.key →
    Served g.terms call.arguments (v.facing k.refresh)
  spares : ∀ k, (∀ own, g.keyOf call.method call.arguments = some own → k ≠ own.key) →
    call.proceed.Spares i k → (t.ledgers.get i).Sound ∧
      (t.ledgers.get i).current? k = (s.ledgers.get i).current? k
  /-- Only outcomes of the call are noted. -/
  outcomes : ∀ Q : Except Failure Json → Prop,
    (∀ s outcome t, call.proceed.Returns s outcome t → Q outcome) → ∀ a ∈ v.attempts, Q a.outcome
  /-- Once the method is resolved, only the call itself changes what is kept. -/
  keeps : ∃ known, d.Learns s.resolved known call.method call.target ∧
    ∀ P : Known ι → Prop, (call.proceed.Preserves fun s => P s.resolved) → P known → P t.resolved

/-- **A dispatch passes through its guard.** -/
theorem visit_passes (patience : Nat)
    (intercept : ι → Call ι (Notes γ) → Action ι (Notes γ) Result)
    (h : d.Through s.resolved call.method call.target g) {i : Nat}
    (he : g.terms.executor = .attempting i) (hl : g.Limited) (hs : (s.ledgers.get i).Sound)
    (hend : call.proceed.Ends) {key : String}
    (hkey : ∀ k, g.keyOf call.method call.arguments = some k → k.key = key) :
    ∃ v t, (call.visit i key (d.dispatch patience intercept)).Returns s v t ∧
      d.Passes i key g call s v t := by
  have hwatched : d.Through s.noting.resolved call.watched.method call.watched.target g := h
  obtain ⟨u, hlearns, huc, hul, hug, hup, hrun⟩ := dispatch_through patience intercept hwatched
  have hus : (u.ledgers.get i).Sound := by rw [hul]; exact hs
  obtain ⟨result, t, ht, hanswers, hsound, hserved⟩ := Guard.invoke_answers (s := u) he hl hus
    (by rw [hug]; rfl) (by rw [hug, hup]; rfl) hend patience hkey
  rw [← Visit.of_congr i key huc hul] at hanswers hserved
  refine ⟨_, _, Call.visit_returns (hrun result t ht), hanswers, rfl, rfl, hsound, hserved,
    fun k hk hspare => ?_, fun Q hQ => ?_, u.resolved, hlearns, fun P hP hu => ?_⟩
  · have hother : ∀ own, g.keyOf call.watched.method call.watched.arguments = some own →
        k ≠ own.key := hk
    have hleft := Guard.invoke_spares he hother (Call.watched_ends hend)
      (Call.watched_spares hend hspare) patience u result t ht hus
    rw [hul] at hleft
    exact hleft
  · have hnone : ∀ a ∈ u.guest.attempts, Q a.outcome := by rw [hug]; exact List.forall_mem_nil _
    exact Guard.invoke_preserves
      (Action.indifferent_guest fun n : Notes γ => ∀ a ∈ n.attempts, Q a.outcome)
      (fun _ _ _ h => h) (Call.watched_notes hend hQ) g patience u result t ht hnone
  · exact Guard.invoke_preserves (Action.indifferent_resolved P) (fun _ _ _ h => h)
      (Call.watched_preserves hend hP) g patience u result t ht hu

end Dispatcher

/-- A dispatch, and what happens before it. -/
structure Dispatch (ι γ : Type) where
  before : Action ι γ Unit
  call : Call ι γ

end CallGuard
