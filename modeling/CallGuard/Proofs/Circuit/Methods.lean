import CallGuard.Proofs.Dispatch.Guards
/-! # Methods that have a circuit

A method has a circuit where its retry settings are stateful and name no interceptor and it has
circuit settings that make sense. Every dispatch to it then is a call on the terms of this circuit,
under the key of its label, whether the method is resolved by it or has been before. Only the
recovery depends on that: it is the one found for the target of the first dispatch. -/

namespace CallGuard

variable {ι γ : Type}

namespace Dispatcher

def circuitOf (d : Dispatcher) (m : Method) : Option Circuit :=
  match d.settings.retry m, d.settings.circuit m with
  | some retry, some circuit =>
    if retry.interceptorName = none ∧ retry.stateful = true then
      match limitFor circuit.toAttemptSettings with
      | .ok limit => some ⟨limit, circuit.openTimeout, circuit.resetTimeout,
          circuit.labelName.getD m.signature⟩
      | .error _ => none
    else none
  | _, _ => none

/-- The terms of the dispatches to a method with a circuit, first dispatched to on this target. -/
def circuitTerms (d : Dispatcher) (c : Circuit) (m : Method) (origin : Target) : Terms :=
  d.termsFor (.circuit c) .none (Recoverer.locate d.handlers origin m).1

def circuitGuardOf (d : Dispatcher) (c : Circuit) (m : Method) (origin : Target) : Guard :=
  .circuit (d.circuitTerms c m origin) c.label d.ledger

/-- Whatever the dispatcher keeps for a method with a circuit is the guard of that circuit, with the
recovery found for one of the method's `origins`. -/
def Settled (d : Dispatcher) (origins : Method → Target → Prop) (known : Known ι) : Prop :=
  ∀ m c r, d.circuitOf m = some c → (known.get d.resolved).get? m = some r →
    ∃ origin, origins m origin ∧ r.strategy = .guarded (d.circuitGuardOf c m origin)

theorem settled_empty (d : Dispatcher) (origins : Method → Target → Prop) :
    d.Settled origins (Shelf.empty : Known ι) := by
  intro m c r _ hr; cases hr

variable {origins : Method → Target → Prop} {d : Dispatcher} {m : Method} {c : Circuit}
  {call : Call ι γ} {s : Session ι γ} {i : Nat}

theorem guardOf?_circuit (hm : d.circuitOf m = some c) (target : Target) :
    d.guardOf? m target = some (d.circuitGuardOf c m target) := by
  unfold circuitOf at hm
  split at hm
  · next retry circuit hretry hcircuit =>
    split at hm
    · next hstateful =>
      obtain ⟨hname, hstateful⟩ := hstateful
      split at hm
      · next limit hlimit =>
        cases hm
        unfold guardOf? guardFor circuitGuard
        simp only [hretry, hname, hstateful, hcircuit, hlimit, if_true]
        rfl
      · cases hm
    · cases hm
  · cases hm

/-- A dispatch to a method with a circuit goes through the guard of that circuit. -/
theorem Settled.through {known : Known ι} (hs : d.Settled origins known)
    (hm : d.circuitOf m = some c) {target : Target} (ho : origins m target) :
    ∃ origin, origins m origin ∧ d.Through known m target (d.circuitGuardOf c m origin) := by
  cases hk : d.kept? known m with
  | some r =>
    obtain ⟨origin, horigin, hr⟩ := hs m c r hm hk
    exact ⟨origin, horigin, .inl ⟨r.number, by rw [hk, ← hr]⟩⟩
  | none => exact ⟨target, ho, .inr ⟨hk, guardOf?_circuit hm target⟩⟩

/-- Resolving a method leaves the dispatcher settled. -/
theorem Settled.learns {known known' : Known ι} (hs : d.Settled origins known) {target : Target}
    (ho : origins m target) (hl : d.Learns known known' m target) : d.Settled origins known' := by
  intro m' c' r hm' hr
  by_cases h : m' = m
  · subst h
    obtain ⟨origin, horigin, hthrough⟩ := hs.through hm' ho
    obtain ⟨n, hn⟩ := (hl.through _).mpr hthrough
    obtain rfl : ⟨n, .guarded (d.circuitGuardOf c' m' origin)⟩ = r :=
      Option.some.inj (hn.symm.trans hr)
    exact ⟨origin, horigin, rfl⟩
  · exact hs m' c' r hm' ((hl.elsewhere m' h).symm.trans hr)

/-- **A dispatch to a method with a circuit is a call on the terms of the circuit.** -/
theorem dispatch_served {s : Session ι (Notes γ)} {call : Call ι γ} (patience : Nat)
    (intercept : ι → Call ι (Notes γ) → Action ι (Notes γ) Result)
    (hm : d.circuitOf call.method = some c) (hexec : d.executor = .attempting i)
    (hs : (s.ledgers.get i).Sound) (hset : d.Settled origins s.resolved)
    (ho : origins call.method call.target) (hg : s.guest.attempts = [])
    (hp : s.guest.mark = s.pauses.size) (hend : call.proceed.Ends)
    (hspare : call.proceed.Spares i (Guard.circuitKey c.label))
    (hkeep : call.proceed.Keeps (d.Settled origins)) :
    ∃ result t origin, (d.dispatch patience intercept call.watched).Returns s result t ∧
      origins call.method origin ∧
      Served (d.circuitTerms c call.method origin) call.arguments
        (Visit.of i (Guard.circuitKey c.label) s t result) ∧
      (t.ledgers.get i).Sound ∧ d.Settled origins t.resolved := by
  let terms (origin : Target) := d.circuitTerms c call.method origin
  let key : RetryKey := ⟨Guard.circuitKey c.label, false⟩
  obtain ⟨origin, horigin, hthrough⟩ := hset.through hm ho
  have hwatched : d.Through s.resolved call.watched.method call.watched.target
    (d.circuitGuardOf c call.method origin) := hthrough
  obtain ⟨u, hlearns, huc, hul, hug, hup, hrun⟩ := dispatch_through patience intercept hwatched
  obtain ⟨result, t, ht, hserved, hts⟩ := Execution.stateful_served (s := u) (terms origin) key
    (by rw [hul]; exact hs) (by rw [hug]; exact hg) (by rw [hug, hup]; exact hp) hend hspare
  have hlearnt : d.Settled origins u.resolved := hset.learns ho hlearns
  have hkept : d.Settled origins t.resolved :=
    Execution.stateful_preserves (Action.indifferent_resolved (d.Settled origins))
      (fun _ _ h => h) (Call.watched_preserves hend hkeep) key u result t ht hlearnt
  refine ⟨result, t, origin, hrun result t ?_, horigin, ?_, hts, hkept⟩
  · have hexec : (terms origin).executor = .attempting i := hexec
    change (Execution.run patience ⟨terms origin, some key⟩ call.watched).Returns u result t
    rw [Execution.run_keyed hexec]
    exact ht
  · rw [Visit.of_congr i _ huc hul]
    exact hserved

end Dispatcher

end CallGuard
