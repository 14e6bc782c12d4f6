import Mathlib.Data.Finset.Card
import Mathlib.Data.Finset.Insert
import CallGuard.Proofs.Dispatch.Precedence
/-! # A method is resolved once, and stays as it was resolved

A dispatcher asks for the settings of a method until resolving it succeeds. What came of it then is
kept with the number that it got, and every later call to the method comes to it again, whatever has
been registered in the meantime. A history lists what was asked of a dispatcher, in order; in
between, anything may happen that leaves the strategies kept by this dispatcher alone. -/

namespace CallGuard

variable {ι γ : Type}

/-- A method that a dispatcher is asked to resolve, and what comes of it. -/
structure Consultation (ι : Type) where
  method : Method
  target : Target
  outcome : Except CallError (Resolved ι)
  /-- What is registered at the time. -/
  registry : Registry ι
  /-- What is kept for all methods, and how often settings have been looked up. -/
  found : Dict Method (Resolved ι)
  before : Lookups
  left : Dict Method (Resolved ι)
  after : Lookups

namespace Consultation

/-- What is asked of the dispatcher in a session, and the session after it. -/
def of (d : Dispatcher) (m : Method) (target : Target) (s : Session ι γ)
    (outcome : Except CallError (Resolved ι)) (t : Session ι γ) : Consultation ι where
  method := m
  target := target
  outcome := outcome
  registry := s.registries.get d.registry
  found := s.resolved.get d.resolved
  before := s.lookups.get d.lookups
  left := t.resolved.get d.resolved
  after := t.lookups.get d.lookups

/-- Nothing was kept for the method: its settings are asked for once, and an error is not kept. -/
structure Made (d : Dispatcher) (c : Consultation ι) : Prop where
  asked : c.after.retry = c.before.retry + 1
  refused : ∀ e, (d.resolveFresh c.registry c.method c.target).outcome = .error e →
    c.outcome = .error e ∧ c.left = c.found
  made : ∀ strategy, (d.resolveFresh c.registry c.method c.target).outcome = .ok strategy →
    ∃ n, c.outcome = .ok ⟨n, strategy⟩ ∧ c.left = c.found.insert c.method ⟨n, strategy⟩
  /-- An interceptor is the one registered under its name. -/
  registered : ∀ n name i, c.outcome = .ok ⟨n, .explicit name i⟩ →
    c.registry.resolve name = .ok i

/-- The first consultation of the method that succeeded. -/
def firstSuccess (m : Method) (cs : List (Consultation ι)) : Option (Consultation ι) :=
  cs.find? fun c => decide (c.method = m) && c.outcome.isOk

/-- A consultation after others: once the method has been resolved nothing is looked up and the
outcome is the same again, number included; until then it is made. -/
structure Follows (d : Dispatcher) (earlier : List (Consultation ι)) (c : Consultation ι) :
    Prop where
  again : ∀ c₀, firstSuccess c.method earlier = some c₀ →
    c.outcome = c₀.outcome ∧ c.left = c.found ∧ c.after = c.before
  first : firstSuccess c.method earlier = none → c.Made d
  numbered : ∀ r, firstSuccess c.method earlier = none → c.outcome = .ok r →
    ∀ c' ∈ earlier, ∀ r', c'.outcome = .ok r' → r'.number < r.number

/-- The methods that have been resolved. -/
def resolvedMethods (cs : List (Consultation ι)) : Finset Method :=
  ((cs.filter (·.outcome.isOk)).map (·.method)).toFinset

section Snoc

variable {m : Method} {cs : List (Consultation ι)} {c : Consultation ι}

theorem firstSuccess_found {c₀ : Consultation ι} (h : firstSuccess m cs = some c₀) :
    firstSuccess m (cs ++ [c]) = some c₀ := by
  unfold firstSuccess at h ⊢
  rw [List.find?_append, h]; rfl

theorem firstSuccess_pass (h : ¬ (c.method = m ∧ c.outcome.isOk = true)) :
    firstSuccess m (cs ++ [c]) = firstSuccess m cs := by
  unfold firstSuccess
  rw [List.find?_append, List.find?_singleton]
  simp only [Bool.and_eq_true, decide_eq_true_eq]
  rw [if_neg h, Option.or_none]

theorem firstSuccess_new (h : firstSuccess m cs = none) (hm : c.method = m)
    (hok : c.outcome.isOk = true) : firstSuccess m (cs ++ [c]) = some c := by
  unfold firstSuccess at h ⊢
  rw [List.find?_append, h, Option.none_or, List.find?_singleton, hm, hok]
  simp

theorem mem_resolvedMethods : m ∈ resolvedMethods cs ↔ (firstSuccess m cs).isSome := by
  simp only [resolvedMethods, firstSuccess, List.mem_toFinset, List.mem_map, List.mem_filter,
    List.find?_isSome, Bool.and_eq_true, decide_eq_true_eq]
  grind

theorem resolvedMethods_ok (h : c.outcome.isOk = true) :
    resolvedMethods (cs ++ [c]) = insert c.method (resolvedMethods cs) := by
  ext m
  simp [resolvedMethods, h]

theorem resolvedMethods_error (h : c.outcome.isOk = false) :
    resolvedMethods (cs ++ [c]) = resolvedMethods cs := by
  simp [resolvedMethods, h]

end Snoc

end Consultation

namespace Dispatcher

open Consultation

variable {d : Dispatcher} {m : Method} {target : Target} {s t : Session ι γ}

/-- A dispatcher that keeps nothing yet is asked for methods, one after the other. -/
inductive History (d : Dispatcher) : List (Consultation ι) → Session ι γ → Prop where
  | start {s : Session ι γ} : s.resolved.get d.resolved = Dict.empty → History d [] s
  /-- Something else happens: an interceptor is registered, a call goes on, another dispatcher is
  asked. -/
  | apart {cs : List (Consultation ι)} {s t : Session ι γ} : History d cs s →
      t.resolved.get d.resolved = s.resolved.get d.resolved →
      t.lookups.get d.lookups = s.lookups.get d.lookups → s.made ≤ t.made → History d cs t
  | asks {cs : List (Consultation ι)} {s t : Session ι γ} {m : Method} {target : Target}
      {outcome : Except CallError (Resolved ι)} : History d cs s →
      (d.resolve m target).Returns s outcome t →
      History d (cs ++ [.of d m target s outcome t]) t

namespace History

/-- What is kept are the first successes, and each of them has a number of its own. -/
structure Recalled (d : Dispatcher) (cs : List (Consultation ι)) (s : Session ι γ) : Prop where
  kept : ∀ m, d.kept? s.resolved m = (firstSuccess m cs).bind (·.outcome.toOption)
  size : (s.resolved.get d.resolved).size = (resolvedMethods cs).card
  numbered : ∀ c ∈ cs, ∀ r, c.outcome = .ok r → r.number < s.made

variable {cs : List (Consultation ι)}

/-- A method with something kept has been resolved. -/
theorem Recalled.found (h : Recalled d cs s) {known : Resolved ι}
    (hk : d.kept? s.resolved m = some known) :
    ∃ c₀, firstSuccess m cs = some c₀ ∧ c₀.outcome = .ok known := by
  rw [h.kept, Option.bind_eq_some_iff] at hk
  obtain ⟨c₀, hfirst, ho⟩ := hk
  refine ⟨c₀, hfirst, ?_⟩
  cases hc : c₀.outcome with
  | ok r => rw [hc] at ho; cases ho; rfl
  | error e => rw [hc] at ho; cases ho

theorem Recalled.missing (h : Recalled d cs s) (hk : d.kept? s.resolved m = none) :
    firstSuccess m cs = none := by
  rw [h.kept] at hk
  cases hfirst : firstSuccess m cs with
  | none => rfl
  | some c₀ =>
    have hok := List.find?_some hfirst
    rw [hfirst, Option.bind_some] at hk
    cases hc : c₀.outcome with
    | ok r => rw [hc] at hk; cases hk
    | error e => simp [hc, Except.isOk, Except.toBool] at hok

theorem Recalled.apart (h : Recalled d cs s)
    (hkept : t.resolved.get d.resolved = s.resolved.get d.resolved) (hmade : s.made ≤ t.made) :
    Recalled d cs t where
  kept m := by unfold kept?; rw [hkept]; exact h.kept m
  size := by rw [hkept]; exact h.size
  numbered c hc r hr := Nat.lt_of_lt_of_le (h.numbered c hc r hr) hmade

/-- What is asked again. -/
theorem Recalled.reused (h : Recalled d cs s) {known : Resolved ι}
    (hk : d.kept? s.resolved m = some known) :
    Recalled d (cs ++ [.of d m target s (.ok known)
      { s with events := s.events ++ [Event.strategyReused m] }])
      { s with events := s.events ++ [Event.strategyReused m] } := by
  obtain ⟨c₀, hfirst, ho⟩ := h.found hk
  refine ⟨fun m' => ?_, ?_, fun c hc r hr => ?_⟩
  · refine (h.kept m').trans ?_
    cases hm' : firstSuccess m' cs with
    | some c₁ => rw [firstSuccess_found hm']
    | none =>
      have hne : m ≠ m' := by rintro rfl; rw [hfirst] at hm'; cases hm'
      rw [firstSuccess_pass fun hc => hne hc.1, hm']
  · refine h.size.trans ?_
    have hmem : m ∈ resolvedMethods cs := mem_resolvedMethods.mpr (by rw [hfirst]; rfl)
    rw [resolvedMethods_ok rfl]
    exact (congrArg Finset.card (Finset.insert_eq_of_mem hmem)).symm
  · rcases List.mem_append.mp hc with hc | hc
    · exact h.numbered c hc r hr
    · cases List.mem_singleton.mp hc
      cases hr
      exact h.numbered c₀ (List.mem_of_find?_eq_some hfirst) _ ho

theorem left_resolving (d : Dispatcher) (m : Method) (target : Target) (s : Session ι γ) :
    (d.resolving m target s).resolved.get d.resolved =
      match (d.resolveFresh (s.registries.get d.registry) m target).outcome with
      | .ok strategy => (s.resolved.get d.resolved).insert m ⟨s.made, strategy⟩
      | .error _ => s.resolved.get d.resolved := Shelf.get_set_self ..

theorem after_resolving (d : Dispatcher) (m : Method) (target : Target) (s : Session ι γ) :
    (d.resolving m target s).lookups.get d.lookups =
      countLookups (d.resolveFresh (s.registries.get d.registry) m target)
        (s.lookups.get d.lookups) := by
  change (s.lookups.modify d.lookups _).get d.lookups = _
  rw [Shelf.get_modify, if_pos rfl]

/-- What is asked for the first time, or was refused so far. -/
theorem Recalled.made (h : Recalled d cs s) (hk : d.kept? s.resolved m = none) (target : Target) :
    Recalled d (cs ++ [.of d m target s
      ((d.resolveFresh (s.registries.get d.registry) m target).outcome.map (⟨s.made, ·⟩))
      (d.resolving m target s)]) (d.resolving m target s) := by
  have hfirst := h.missing hk
  have hleft := left_resolving d m target s
  cases ho : (d.resolveFresh (s.registries.get d.registry) m target).outcome with
  | error e =>
    rw [ho] at hleft
    refine ⟨fun m' => ?_, ?_, fun c hc r hr => ?_⟩
    · unfold kept?
      rw [hleft, firstSuccess_pass fun hc => by cases hc.2]
      exact h.kept m'
    · rw [hleft, resolvedMethods_error rfl]
      exact h.size
    · rcases List.mem_append.mp hc with hc | hc
      · exact Nat.lt_succ_of_lt (h.numbered c hc r hr)
      · cases List.mem_singleton.mp hc
        cases hr
  | ok strategy =>
    rw [ho] at hleft
    refine ⟨fun m' => ?_, ?_, fun c hc r hr => ?_⟩
    · unfold kept?
      rw [hleft, Dict.get?_insert]
      by_cases hm : m' = m
      · rw [if_pos hm, firstSuccess_new (hm ▸ hfirst) hm.symm rfl]; rfl
      · rw [if_neg hm, firstSuccess_pass fun hc => hm hc.1.symm]
        exact h.kept m'
    · have hnew : (s.resolved.get d.resolved).contains m = false := congrArg Option.isSome hk
      have hmem : m ∉ resolvedMethods cs := by
        rw [mem_resolvedMethods, hfirst]; nofun
      rw [hleft, Dict.size_insert, hnew, if_neg nofun, h.size, resolvedMethods_ok rfl]
      exact (Finset.card_insert_of_notMem hmem).symm
    · rcases List.mem_append.mp hc with hc | hc
      · exact Nat.lt_succ_of_lt (h.numbered c hc r hr)
      · cases List.mem_singleton.mp hc
        cases hr
        exact Nat.lt_succ_self _

/-- **What is kept after a history.** -/
theorem recalled (h : History d cs s) : Recalled d cs s := by
  induction h with
  | start hempty =>
    refine ⟨fun m => ?_, ?_, List.forall_mem_nil _⟩
    · unfold kept?; rw [hempty]; rfl
    · rw [hempty]; rfl
  | apart _ hkept _ hmade ih => exact ih.apart hkept hmade
  | @asks cs s t m target outcome _ hreturns ih =>
    cases hk : d.kept? s.resolved m with
    | some known =>
      obtain ⟨rfl, rfl⟩ := hreturns.unique (d.resolve_reused hk target)
      exact ih.reused hk
    | none =>
      obtain ⟨rfl, rfl⟩ := hreturns.unique (d.resolve_made hk target)
      exact ih.made hk target

theorem Recalled.follows_reused (h : Recalled d cs s) {known : Resolved ι}
    (hk : d.kept? s.resolved m = some known) :
    (Consultation.of d m target s (.ok known)
      { s with events := s.events ++ [Event.strategyReused m] }).Follows d cs := by
  obtain ⟨c₀, hfirst, ho⟩ := h.found hk
  refine ⟨fun c₁ hc₁ => ?_, fun hnone => ?_, fun _ hnone => ?_⟩
  · obtain rfl : c₀ = c₁ := Option.some.inj (hfirst.symm.trans hc₁)
    exact ⟨ho.symm, rfl, rfl⟩
  · cases hfirst.symm.trans hnone
  · cases hfirst.symm.trans hnone

/-- An interceptor is the one that is registered. -/
theorem resolveFresh_explicit {registry : Registry ι} {name : String} {i : ι}
    (h : (d.resolveFresh registry m target).outcome = .ok (.explicit name i)) :
    registry.resolve name = .ok i := by
  cases chosen_iff.mp h with
  | explicit _ _ _ hfound =>
    unfold Registry.resolve
    rw [hfound]

theorem Recalled.follows_made (h : Recalled d cs s) (hk : d.kept? s.resolved m = none)
    (target : Target) :
    (Consultation.of d m target s
      ((d.resolveFresh (s.registries.get d.registry) m target).outcome.map (⟨s.made, ·⟩))
      (d.resolving m target s)).Follows d cs := by
  have hfirst := h.missing hk
  have hleft := left_resolving d m target s
  have hafter := after_resolving d m target s
  refine ⟨fun c₁ hc₁ => ?_, fun _ => ⟨?_, fun e he => ?_, fun strategy hs => ?_,
    fun n name i hi => ?_⟩, fun r _ hr c' hc' r' hr' => ?_⟩
  · cases hfirst.symm.trans hc₁
  · exact congrArg Lookups.retry hafter
  · change (d.resolveFresh (s.registries.get d.registry) m target).outcome = .error e at he
    rw [he] at hleft ⊢
    exact ⟨rfl, hleft⟩
  · change (d.resolveFresh (s.registries.get d.registry) m target).outcome = .ok strategy at hs
    rw [hs] at hleft ⊢
    exact ⟨s.made, rfl, hleft⟩
  · cases ho : (d.resolveFresh (s.registries.get d.registry) m target).outcome with
    | error e => rw [ho] at hi; cases hi
    | ok strategy =>
      rw [ho] at hi
      cases hi
      exact resolveFresh_explicit ho
  · cases ho : (d.resolveFresh (s.registries.get d.registry) m target).outcome with
    | error e => rw [ho] at hr; cases hr
    | ok strategy =>
      rw [ho] at hr
      cases hr
      exact h.numbered c' hc' r' hr'

theorem Recalled.follows (h : Recalled d cs s) {outcome : Except CallError (Resolved ι)}
    (hr : (d.resolve m target).Returns s outcome t) :
    (Consultation.of d m target s outcome t).Follows d cs := by
  cases hk : d.kept? s.resolved m with
  | some known =>
    obtain ⟨rfl, rfl⟩ := hr.unique (d.resolve_reused hk target)
    exact h.follows_reused hk
  | none =>
    obtain ⟨rfl, rfl⟩ := hr.unique (d.resolve_made hk target)
    exact h.follows_made hk target

/-! ## Histories -/

/-- Registering an interceptor asks nothing of the dispatcher. -/
theorem registers (h : History d cs s) (place : Nat) (name : String) (i : ι) :
    History d cs { s with
      registries := s.registries.modify place fun r => (r.register name i).1 } :=
  h.apart rfl rfl (Nat.le_refl _)

/-- Each consultation follows those before it. -/
theorem follows (h : History d cs s) {earlier later : List (Consultation ι)} {c : Consultation ι}
    (hcs : cs = earlier ++ c :: later) : c.Follows d earlier := by
  induction h generalizing later with
  | start => simp at hcs
  | apart _ _ _ _ ih => exact ih hcs
  | asks h hreturns ih =>
    -- the last consultation, or one before it
    rcases later.eq_nil_or_concat with rfl | ⟨before, last, rfl⟩
    · obtain ⟨rfl, hc⟩ := List.append_inj' hcs rfl
      cases hc
      exact h.recalled.follows hreturns
    · rw [List.concat_eq_append, ← List.cons_append, ← List.append_assoc] at hcs
      exact ih (List.append_inj' hcs rfl).1

/-- **A method is resolved once, and stays as it was resolved.** Whatever a dispatcher is asked, in
any order and with anything registered in between: until resolving a method succeeds, each call for
it looks the settings up and comes to what they and the registered interceptors give at that time,
and an error leaves what is kept as it was. From then on each call comes to that first success,
which was given a number of its own, and looks nothing up. As many strategies are kept as methods
have been resolved, and whatever is asked next there is an answer. -/
theorem pinned (h : History d cs s) :
    (∀ earlier c later, cs = earlier ++ c :: later → c.Follows d earlier) ∧
      (s.resolved.get d.resolved).size = (resolvedMethods cs).card ∧
      ∀ m target, ∃ outcome t, (d.resolve m target).Returns s outcome t := by
  refine ⟨fun earlier c later hcs => h.follows hcs, h.recalled.size, fun m target => ?_⟩
  obtain ⟨outcome, t, ht, -⟩ := d.resolve_returns m target s
  exact ⟨outcome, t, ht⟩

/-- A method with an interceptor that has to be registered. -/
def exportMethod : Method := ⟨"Orders", "export", []⟩

def exporter : Dispatcher :=
  plain [.onMethod exportMethod { RetrySettings.default with interceptor := some "exporter" }]

def orders : Target := ⟨"Orders", none⟩

/-- An interceptor is registered after a call has failed, and replaced after one has gone well. -/
theorem pinned_exporter :
    ∃ (cs : List (Consultation Nat)) (s : Session Nat Unit), exporter.History cs s ∧
      cs.map (·.outcome) = [.error (.interceptorMissing "exporter"),
        .ok ⟨1, .explicit "exporter" 7⟩, .ok ⟨1, .explicit "exporter" 7⟩] ∧
      cs.map (·.after.retry) = [1, 2, 2] ∧
      (∀ earlier c later, cs = earlier ++ c :: later → c.Follows exporter earlier) ∧
      (s.resolved.get exporter.resolved).size = (resolvedMethods cs).card ∧
      ∀ m target, ∃ outcome t, (exporter.resolve m target).Returns s outcome t := by
  have empty : exporter.History ([] : List (Consultation Nat)) (Session.begin ()) := .start rfl
  have refused := empty.asks (exporter.resolve_made (m := exportMethod) rfl orders)
  have made := (refused.registers 0 "exporter" 7).asks
    (exporter.resolve_made (m := exportMethod) rfl orders)
  have again := (made.registers 0 "exporter" 8).asks
    (exporter.resolve_reused (m := exportMethod) rfl orders)
  exact ⟨_, _, again, rfl, rfl, pinned again⟩

/-- A dispatch asks for its method first, then for whatever is asked while the call is made. An
error is its result, and nothing else happens. -/
theorem dispatches {call : Call ι γ} {patience : Nat}
    {intercept : ι → Call ι γ → Action ι γ Result} {result : Result}
    (hcall : ∀ cs, call.proceed.Preserves fun s => ∃ more, History d (cs ++ more) s)
    (hintercept : ∀ i cs, (intercept i call).Preserves fun s => ∃ more, History d (cs ++ more) s)
    (h : History d cs s) (hr : (d.dispatch patience intercept call).Returns s result t) :
    ∃ outcome u more, (d.resolve call.method call.target).Returns s outcome u ∧
      History d (cs ++ .of d call.method call.target s outcome u :: more) t ∧
      ∀ e, outcome = .error e → result = .error e ∧ t = u := by
  obtain ⟨outcome, u, hu, hr⟩ := hr.of_bind
  have hasked := h.asks hu
  have hgoes (act : Action ι γ Result) (hact : ∀ cs, act.Preserves fun s =>
      ∃ more, History d (cs ++ more) s) (ht : act.Returns u result t) :
      ∃ more, History d (cs ++ .of d call.method call.target s outcome u :: more) t := by
    obtain ⟨more, hmore⟩ := hact _ u result t ht ⟨[], by rw [List.append_nil]; exact hasked⟩
    exact ⟨more, by rw [List.append_assoc] at hmore; exact hmore⟩
  cases outcome with
  | error e =>
    cases hr
    exact ⟨.error e, t, [], hu, hasked, fun e' he => by cases he; exact ⟨rfl, rfl⟩⟩
  | ok known =>
    suffices hrest : ∃ more, History d (cs ++ .of d call.method call.target s (.ok known) u ::
        more) t by
      obtain ⟨more, hmore⟩ := hrest
      exact ⟨_, u, more, hu, hmore, nofun⟩
    obtain ⟨n, strategy⟩ := known
    cases strategy with
    | none => exact hgoes call.once (fun cs => Execution.once_preserves (hcall cs)) hr
    | explicit name i => exact hgoes _ (hintercept i) hr
    | guarded g =>
      refine hgoes (g.invoke patience call) (fun cs => ?_) hr
      refine Guard.invoke_preserves ⟨fun s c hs => ?_, fun s es hs => ?_, fun s w ps hs => ?_⟩
        (fun i s l hs => ?_) (hcall cs) g patience
      all_goals
        obtain ⟨more, hmore⟩ := hs
        exact ⟨more, hmore.apart rfl rfl (Nat.le_refl _)⟩

end History

end Dispatcher

end CallGuard
