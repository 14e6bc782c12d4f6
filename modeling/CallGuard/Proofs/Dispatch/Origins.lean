import CallGuard.Proofs.Dispatch.Guards
import CallGuard.Proofs.Runs
import CallGuard.Settings.Table
/-! # Whose recovery a dispatch gets

A dispatcher makes the guard of a method once, at the first dispatch to it, and the guard brings the
recovery of the target of that dispatch along. All later dispatches to the method go through this
guard, whatever their own target is: `recovered_as_first`. -/

namespace CallGuard

variable {ι γ α : Type}

/-! ## Giving up -/

namespace Guard

/-- The call ends without success and for good: its last attempt fails, or, with a key, it is
refused every attempt though there is room for the key. -/
def GaveUp (g : Guard) (v : Visit) : Prop :=
  match g with
  | stateless _ => ∃ prior last f, v.attempts = prior ++ [last] ∧ last.outcome = .error f
  | stateful _ _ | circuit _ _ _ => v.attempts = [] ∧ v.turnedAway = false

/-- The failure that a call gives up with, and the error that it ends with if not recovered. -/
inductive Tells (g : Guard) (method : Method) (arguments : List Json) (v : Visit) :
    Failure → CallError → Prop where
  | spent {prior : List Attempt} {last : Attempt} {f : Failure} (terms : Terms) :
      g = .stateless terms → v.attempts = prior ++ [last] → last.outcome = .error f →
      Tells g method arguments v f (.failed f)
  | refused {key : RetryKey} {last : Failure} {c : Check} : g.keyOf method arguments = some key →
      c = (v.facing key.refresh).admission g.terms.policy → c.allowed = false →
      c.context.last = some last →
      Tells g method arguments v last (g.terms.refusal c.context.attempts last)

end Guard

/-- Attempts that end with a failure end in its recovery. -/
theorem Attempted.gave_up {terms : Terms} {limit : AttemptLimit} {arguments : List Json} {k : Nat}
    {pauses : List Pause} {attempts prior : List Attempt} {last : Attempt} {f : Failure}
    {result : Result} (h : Attempted terms limit arguments k pauses attempts result)
    (hlast : attempts = prior ++ [last]) (hf : last.outcome = .error f) :
    result = terms.recovery arguments f (.failed f) := by
  have hsome : attempts.getLast? = some last := by rw [hlast]; exact List.getLast?_concat
  clear hlast
  induction h with
  | succeeded => cases hsome; cases hf
  | gaveUp => cases hsome; cases hf; rfl
  | @retried k ended ps f' later result words hagain hlater ih =>
    refine ih ?_
    cases hlater <;> exact hsome

/-- **A call that gives up is recovered by the recovery of its guard.** -/
theorem Guard.Answers.gave_up {g : Guard} {method : Method} {arguments : List Json} {v : Visit}
    (h : g.Answers method arguments v) (hup : g.GaveUp v) :
    ∃ last otherwise, g.Tells method arguments v last otherwise ∧
      v.result = g.terms.recovery arguments last otherwise := by
  cases h with
  | stateless terms limit hg hp hpau hatt =>
    subst hg
    obtain ⟨prior, last, f, hlast, hf⟩ := hup
    exact ⟨f, _, .spent terms rfl hlast hf, hatt.gave_up hlast hf⟩
  | unkeyed terms rule outcome ended hg hk hatt =>
    subst hg
    exact absurd (hup.1.symm.trans hatt) nofun
  | keyed key hk hanswered =>
    obtain ⟨hatt, haway⟩ : v.attempts = [] ∧ v.turnedAway = false := by
      cases g with
      | stateless terms => cases hk
      | stateful terms rule => exact hup
      | circuit terms label ledger => exact hup
    cases hanswered with
    | full capacity _ _ hres =>
      change v.result = _ at hres
      unfold Visit.turnedAway at haway
      rw [hres] at haway
      cases haway
    | refused last hno hlast _ _ hres => exact ⟨last, _, .refused hk rfl hno hlast, hres⟩
    | attempted outcome ended _ hone => exact absurd (hatt.symm.trans hone) nofun

namespace Guard

theorem keyOf_recoveringBy (g : Guard) (r : Option Recoverer) :
    (g.recoveringBy r).keyOf = g.keyOf := by cases g <;> rfl

theorem gaveUp_recoveringBy (g : Guard) (r : Option Recoverer) (v : Visit) :
    (g.recoveringBy r).GaveUp v ↔ g.GaveUp v := by cases g <;> exact Iff.rfl

theorem Tells.recoveringBy {g : Guard} {r : Option Recoverer} {method : Method}
    {arguments : List Json} {v : Visit} {last : Failure} {otherwise : CallError}
    (h : (g.recoveringBy r).Tells method arguments v last otherwise) :
    g.Tells method arguments v last otherwise := by
  cases h with
  | spent terms hg hlast hf =>
    cases g with
    | stateless terms' => exact .spent terms' rfl hlast hf
    | stateful terms' rule => cases hg
    | circuit terms' label ledger => cases hg
  | refused hk hc hno hlast =>
    have hpolicy : (g.recoveringBy r).terms.policy = g.terms.policy := by cases g <;> rfl
    have hrefusal (n : Nat) (f : Failure) :
        (g.recoveringBy r).terms.refusal n f = g.terms.refusal n f := by
      unfold Terms.refusal; rw [hpolicy]
    rw [keyOf_recoveringBy] at hk
    rw [hpolicy] at hc
    rw [hrefusal]
    exact .refused hk hc hno hlast

end Guard

namespace Dispatcher

/-- What recovering a call as one on `origin` comes to. -/
def recoveredAs (d : Dispatcher) (origin : Target) (call : Call ι γ) (last : Failure)
    (otherwise : CallError) : Result :=
  match (Recoverer.locate d.handlers origin call.method).1 with
  | some r => (r.recover call.arguments last).1.mapError .failed
  | none => .error otherwise

/-- The key that a dispatch uses, if it uses one. -/
def keyFor (d : Dispatcher) (call : Call ι γ) : String :=
  match (d.guardOf? call.method call.target).bind (·.keyOf call.method call.arguments) with
  | some key => key.key
  | none => ""

variable {d : Dispatcher} {m : Method} {origin target : Target} {g : Guard} {call : Call ι γ}

theorem Makes.recovery (h : d.Makes call.method origin g) (last : Failure)
    (otherwise : CallError) :
    g.terms.recovery call.arguments last otherwise = d.recoveredAs origin call last otherwise := by
  let answer (recoverer : Option Recoverer) : Result :=
    match recoverer with
    | some r => (r.recover call.arguments last).1.mapError .failed
    | none => .error otherwise
  exact congrArg answer h.recoverer

/-- The guards made for a method on two targets are the same but for the recovery. -/
theorem guardOf?_elsewhere (h : d.guardOf? m origin = some g) (target : Target) :
    d.guardOf? m target =
      some (g.recoveringBy (Recoverer.locate d.handlers target m).1) := by
  rw [d.guardOf?_recovering m target origin, h]; rfl

theorem keyFor_eq (h : d.guardOf? call.method origin = some g) {key : RetryKey}
    (hk : g.keyOf call.method call.arguments = some key) : key.key = d.keyFor call := by
  unfold keyFor
  rw [guardOf?_elsewhere h, Option.bind_some, Guard.keyOf_recoveringBy, hk]

/-- Every guard that is kept was made by this dispatcher. -/
def Own (d : Dispatcher) (known : Known ι) : Prop :=
  ∀ m n g, d.kept? known m = some ⟨n, .guarded g⟩ → ∃ origin, d.guardOf? m origin = some g

theorem own_empty (d : Dispatcher) : d.Own (Shelf.empty : Known ι) := by
  intro m n g h; cases h

theorem Own.through {known : Known ι} (h : d.Own known) (hg : d.Through known m target g) :
    ∃ origin, d.guardOf? m origin = some g := by
  rcases hg with ⟨n, hn⟩ | ⟨-, hfresh⟩
  · exact h m n g hn
  · exact ⟨target, hfresh⟩

theorem Own.learns {known known' : Known ι} (h : d.Own known)
    (hl : d.Learns known known' m target) : d.Own known' := by
  intro m' n g hm'
  by_cases hm : m' = m
  · subst hm
    exact h.through ((hl.through g).mp ⟨n, hm'⟩)
  · exact h m' n g (hl.elsewhere m' hm ▸ hm')

end Dispatcher

/-! ## Dispatches in order -/

/-- The action ends, leaves the ledger `i` sound and, of the strategies that a dispatcher keeps,
that of a method as it is and the guards the dispatcher's own. -/
structure Action.Harmless (d : Dispatcher) (i : Nat) (m : Method) (act : Action ι γ α) : Prop where
  ends : act.Ends
  sound : act.Preserves fun s => (s.ledgers.get i).Sound
  own : act.Preserves fun s => d.Own s.resolved
  keeps : ∀ kept, act.Preserves fun s => d.kept? s.resolved m = kept

namespace Action.Harmless

variable {d : Dispatcher} {i : Nat} {m : Method} {call : Call ι γ}

theorem watched (h : call.proceed.Harmless d i m) : call.watched.proceed.Harmless d i m where
  ends := Call.watched_ends h.ends
  sound := Call.watched_preserves h.ends h.sound
  own := Call.watched_preserves h.ends h.own
  keeps kept := Call.watched_preserves h.ends (h.keeps kept)

theorem once (h : call.proceed.Harmless d i m) : call.once.Harmless d i m where
  ends s := by
    obtain ⟨outcome, t, ht⟩ := h.ends s
    exact ⟨_, t, Execution.once_returns ht⟩
  sound := Execution.once_preserves h.sound
  own := Execution.once_preserves h.own
  keeps kept := Execution.once_preserves (h.keeps kept)

theorem done (a : α) : (pure a : Action ι γ α).Harmless d i m :=
  ⟨fun s => ⟨a, s, rfl⟩, .pure a, .pure a, fun _ => .pure a⟩

end Action.Harmless

namespace Dispatch

/-- Makes a dispatch, and reports on it and on its key. -/
def observe (patience : Nat) (intercept : ι → Call ι (Notes γ) → Action ι (Notes γ) Result)
    (d : Dispatcher) (i : Nat) (r : Dispatch ι γ) : Action ι γ Visit := do
  r.before
  r.call.visit i (d.keyFor r.call) (d.dispatch patience intercept)

/-- Whatever happens around the dispatch leaves the strategy of a method to the dispatcher. -/
structure Undisturbed (intercept : ι → Call ι (Notes γ) → Action ι (Notes γ) Result)
    (d : Dispatcher) (i : Nat) (m : Method) (r : Dispatch ι γ) : Prop where
  before : r.before.Harmless d i m
  call : r.call.proceed.Harmless d i m
  intercepted : ∀ x, (intercept x r.call.watched).Harmless d i m

/-- The target of the first of these dispatches that is to a method. -/
def firstTarget (rounds : List (Dispatch ι γ)) (m : Method) : Option Target :=
  (rounds.find? fun r => r.call.method = m).map (·.call.target)

theorem firstTarget_cons (r : Dispatch ι γ) (rounds : List (Dispatch ι γ)) (m : Method) :
    firstTarget (r :: rounds) m = (firstTarget [r] m).or (firstTarget rounds m) := by
  unfold firstTarget
  by_cases h : r.call.method = m <;> simp [h]

theorem firstTarget_here (first : Option Target) (r : Dispatch ι γ) :
    ∃ origin, first.or (firstTarget [r] r.call.method) = some origin := by
  cases first <;> simp [firstTarget]

end Dispatch

namespace Dispatcher

/-- What is kept for a method goes back to its first target, if there has been one. -/
structure Recalls (d : Dispatcher) (m : Method) (first : Option Target) (known : Known ι) :
    Prop where
  own : d.Own known
  fresh : first = none → d.kept? known m = none
  kept : ∀ origin g, first = some origin → d.guardOf? m origin = some g →
    ∃ n, d.kept? known m = some ⟨n, .guarded g⟩

variable {d : Dispatcher} {m : Method} {first : Option Target} {known known' : Known ι}

/-- **The first dispatch to a method decides what is kept for it.** -/
theorem Recalls.learns (h : d.Recalls m first known) {r : Dispatch ι γ}
    (hl : d.Learns known known' r.call.method r.call.target) :
    d.Recalls m (first.or (Dispatch.firstTarget [r] m)) known' := by
  have hown := h.own.learns hl
  by_cases hr : r.call.method = m
  · subst hr
    have hone : Dispatch.firstTarget [r] r.call.method = some r.call.target := by
      simp [Dispatch.firstTarget]
    rw [hone]
    refine ⟨hown, fun hnone => ?_, fun origin g horigin hg => (hl.through g).mpr ?_⟩
    · cases first <;> cases hnone
    · cases first with
      | none => cases horigin; exact .inr ⟨h.fresh rfl, hg⟩
      | some o => cases horigin; exact .inl (h.kept origin g rfl hg)
  · have hnone : Dispatch.firstTarget [r] m = none := by simp [Dispatch.firstTarget, hr]
    rw [hnone, Option.or_none]
    rw [← Ne, ne_comm] at hr
    exact ⟨hown, fun hf => (hl.elsewhere m hr).trans (h.fresh hf),
      fun origin g hf hg => hl.elsewhere m hr ▸ h.kept origin g hf hg⟩

theorem Recalls.of_kept (h : d.Recalls m first known) (hown : d.Own known')
    (hkept : d.kept? known' m = d.kept? known m) : d.Recalls m first known' :=
  ⟨hown, fun hf => hkept.trans (h.fresh hf), fun origin g hf hg => hkept ▸ h.kept origin g hf hg⟩

theorem Recalls.harmless {i : Nat} {s t : Session ι γ} {a : α} {act : Action ι γ α}
    (h : d.Recalls m first s.resolved) (hact : act.Harmless d i m) (ht : act.Returns s a t) :
    d.Recalls m first t.resolved :=
  h.of_kept (hact.own s a t ht h.own) (hact.keeps _ s a t ht rfl)

end Dispatcher

namespace Dispatch

variable {d : Dispatcher} {i : Nat} {m : Method} {first : Option Target} {s t : Session ι γ}
  {r : Dispatch ι γ} {v : Visit}
  {intercept : ι → Call ι (Notes γ) → Action ι (Notes γ) Result}

/-- Where the dispatch gives up, it is recovered as a call on the first target. -/
def RecoveredBy (d : Dispatcher) (m : Method) (first : Option Target) (r : Dispatch ι γ)
    (v : Visit) : Prop :=
  r.call.method = m → ∀ g, d.guardOf? m r.call.target = some g → g.GaveUp v →
    ∃ origin last otherwise, first = some origin ∧
      g.Tells m r.call.arguments v last otherwise ∧
      v.result = d.recoveredAs origin r.call last otherwise

/-- A dispatch goes through the guard of the first target, or through none at all. -/
theorem recovered_of_answers {known : Known ι} {g : Guard}
    (hrecalls : d.Recalls m (first.or (firstTarget [r] m)) known)
    (hlearns : d.Learns s.resolved known r.call.method r.call.target)
    (hthrough : d.Through s.resolved r.call.method r.call.target g)
    (hv : g.Answers r.call.method r.call.arguments v) :
    RecoveredBy d m (first.or (firstTarget [r] m)) r v := by
  rintro rfl own hown hup
  obtain ⟨origin, horigin⟩ := firstTarget_here first r
  -- the guard that is kept now is that of the origin, and the dispatch went through it
  have hfirst := Dispatcher.guardOf?_elsewhere hown origin
  obtain ⟨n, hn⟩ := hrecalls.kept origin _ horigin hfirst
  obtain ⟨n', hn'⟩ := (hlearns.through g).mpr hthrough
  obtain rfl : own.recoveringBy (Recoverer.locate d.handlers origin r.call.method).1 = g := by
    rw [hn] at hn'
    cases hn'
    rfl
  obtain ⟨last, otherwise, htells, hres⟩ :=
    hv.gave_up ((Guard.gaveUp_recoveringBy ..).mpr hup)
  exact ⟨origin, last, otherwise, horigin, htells.recoveringBy,
    hres.trans ((Dispatcher.guardOf?_makes hfirst).recovery last otherwise)⟩

theorem observe_recovered (patience : Nat) (hexec : d.executor = .attempting i)
    (h : r.Undisturbed intercept d i m) (hs : (s.ledgers.get i).Sound)
    (hrecalls : d.Recalls m first s.resolved) :
    ∃ v t, (r.observe patience intercept d i).Returns s v t ∧ (t.ledgers.get i).Sound ∧
      d.Recalls m (first.or (firstTarget [r] m)) t.resolved ∧
      RecoveredBy d m (first.or (firstTarget [r] m)) r v := by
  obtain ⟨⟨⟩, u, hu⟩ := h.before.ends s
  have hus := h.before.sound s () u hu hs
  have hurecalls := hrecalls.harmless h.before hu
  by_cases hguard : ∃ g, d.Through u.resolved r.call.method r.call.target g
  · obtain ⟨g, hg⟩ := hguard
    obtain ⟨origin, horigin⟩ := hurecalls.own.through hg
    have hmakes := Dispatcher.guardOf?_makes horigin
    obtain ⟨v, t, ht, hpasses⟩ := Dispatcher.visit_passes patience intercept hg
      (hmakes.executor.trans hexec) hmakes.limited hus h.call.ends
      (fun k hk => Dispatcher.keyFor_eq horigin hk)
    obtain ⟨known, hlearns, hleft⟩ := hpasses.keeps
    have hknown := hurecalls.learns hlearns
    have hkept : d.kept? t.resolved m = d.kept? known m :=
      hleft (d.kept? · m = d.kept? known m) (h.call.keeps _) rfl
    exact ⟨v, t, hu.bind ht, hpasses.sound h.call.sound,
      hknown.of_kept (hleft _ h.call.own hknown.own) hkept,
      recovered_of_answers hknown hlearns hg hpasses.answers⟩
  · have hunguarded : ∀ g, ¬ d.Through u.noting.resolved r.call.watched.method
        r.call.watched.target g := not_exists.mp hguard
    obtain ⟨w, act, hlearns, -, hwl, -, -, hact, hrun⟩ :=
      Dispatcher.dispatch_unguarded patience intercept hunguarded
    have hharmless : act.Harmless d i m := by
      rcases hact with rfl | ⟨e, rfl⟩ | ⟨x, rfl⟩
      · exact h.call.watched.once
      · exact .done _
      · exact h.intercepted x
    have hwrecalls := hurecalls.learns hlearns
    have hws : (w.ledgers.get i).Sound := by rw [hwl]; exact hus
    obtain ⟨result, t, ht⟩ := hharmless.ends w
    refine ⟨_, _, hu.bind (Call.visit_returns (hrun result t ht)),
      hharmless.sound w result t ht hws, hwrecalls.harmless hharmless ht, ?_⟩
    rintro rfl own hown -
    obtain ⟨origin, horigin⟩ := firstTarget_here first r
    have hkept := hwrecalls.kept origin _ horigin (Dispatcher.guardOf?_elsewhere hown origin)
    exact absurd ⟨_, (hlearns.through _).mp hkept⟩ hguard

/-- One dispatch after the other, each with the first target seen so far. -/
theorem run_recovered (patience : Nat) (hexec : d.executor = .attempting i)
    {rounds : List (Dispatch ι γ)} (h : ∀ r ∈ rounds, r.Undisturbed intercept d i m)
    (first : Option Target) {s : Session ι γ} (hs : (s.ledgers.get i).Sound)
    (hrecalls : d.Recalls m first s.resolved) :
    ∃ seen t, (Action.inOrder (observe patience intercept d i) rounds).Returns s seen t ∧
      seen.map Prod.fst = rounds ∧
      ∀ e ∈ seen, RecoveredBy d m (first.or (firstTarget rounds m)) e.1 e.2 := by
  induction rounds generalizing first s with
  | nil => exact ⟨[], s, rfl, rfl, List.forall_mem_nil _⟩
  | cons r rounds ih =>
    obtain ⟨v, t, ht, hts, htrecalls, hv⟩ :=
      observe_recovered patience hexec (h r (.head _)) hs hrecalls
    obtain ⟨seen, u, hu, hmap, hseen⟩ := ih (fun r' hr' => h r' (.tail _ hr')) _ hts htrecalls
    refine ⟨(r, v) :: seen, u, ht.bind (hu.bind rfl), by rw [List.map_cons, hmap], ?_⟩
    rw [firstTarget_cons, ← Option.or_assoc]
    refine List.forall_mem_cons.mpr ⟨fun hr g hg hup => ?_, hseen⟩
    obtain ⟨origin, last, otherwise, horigin, hrest⟩ := hv hr g hg hup
    exact ⟨origin, last, otherwise, by rw [horigin, Option.some_or], hrest⟩

/-- **Every dispatch to a method gets the recovery of the first.** Dispatches to any methods on any
targets are made in any order by a dispatcher that keeps nothing for the method `m` yet. Then each
dispatch to `m` that has a guard and gives up is recovered, from the failure and in place of the
error that its guard tells of, as a call on the target of the first dispatch to `m`; its own target
does not count. -/
theorem recovered_as_first (patience : Nat) (hexec : d.executor = .attempting i)
    {rounds : List (Dispatch ι γ)} (h : ∀ r ∈ rounds, r.Undisturbed intercept d i m)
    {s : Session ι γ} (hs : (s.ledgers.get i).Sound) (hown : d.Own s.resolved)
    (hnone : d.kept? s.resolved m = none) :
    ∃ seen t, (Action.inOrder (observe patience intercept d i) rounds).Returns s seen t ∧
      seen.map Prod.fst = rounds ∧
      ∀ e ∈ seen, e.1.call.method = m → ∀ g, d.guardOf? m e.1.call.target = some g →
        g.GaveUp e.2 →
        ∃ origin last otherwise, firstTarget rounds m = some origin ∧
          g.Tells m e.1.call.arguments e.2 last otherwise ∧
          e.2.result = d.recoveredAs origin e.1.call last otherwise := by
  have hstart : d.Recalls m none s.resolved :=
    ⟨hown, fun _ => hnone, fun _ _ hfirst => (by cases hfirst)⟩
  obtain ⟨seen, t, ht, hmap, hseen⟩ := run_recovered patience hexec h none hs hstart
  rw [Option.none_or] at hseen
  exact ⟨seen, t, ht, hmap, fun e he hm g hg hup => hseen e he hm g hg hup⟩

/-! ## One method on two sites -/

/-- The only method with settings has one attempt in each call. -/
def storekeeper : Dispatcher where
  settings := (SettingsTable.ofDeclarations [.onMethod ⟨"Store", "count", []⟩
    { RetrySettings.default with maxAttempts := 1 }]).source
  handlers := fun _ => []
  sleeper := .instant
  executor := .attempting 0
  keys := ⟨none, none⟩
  ledger := 0
  registry := 0
  resolved := 0
  lookups := 0

/-- A failing call on a site that recovers with its name. -/
def failingOn (site : String) : Dispatch Unit Unit where
  before := pure ()
  call := ⟨⟨"Store", "count", []⟩, ⟨site, some fun _ _ => .ok (.str site)⟩, [],
    pure (.error ⟨⟨.root "Down" "Down", "down"⟩, []⟩)⟩

def inTwoSites : Action Unit Unit (List (Dispatch Unit Unit × Visit)) :=
  Action.inOrder (observe 0 (fun _ call => call.once) storekeeper 0)
    [failingOn "North", failingOn "South"]

theorem failingOn_undisturbed (site : String) (m : Method) :
    (failingOn site).Undisturbed (fun _ call => call.once) storekeeper 0 m where
  before := .done _
  call := .done _
  intercepted _ := (Action.Harmless.done _).watched.once

theorem recovered_as_first_sites :
    ∃ seen t, inTwoSites.Returns (Session.begin ()) seen t ∧
      seen.map Prod.fst = [failingOn "North", failingOn "South"] ∧
      ∀ e ∈ seen, e.1.call.method = ⟨"Store", "count", []⟩ →
        ∀ g, storekeeper.guardOf? ⟨"Store", "count", []⟩ e.1.call.target = some g → g.GaveUp e.2 →
        ∃ origin last otherwise,
          firstTarget [failingOn "North", failingOn "South"] ⟨"Store", "count", []⟩ =
            some origin ∧
          g.Tells ⟨"Store", "count", []⟩ e.1.call.arguments e.2 last otherwise ∧
          e.2.result = storekeeper.recoveredAs origin e.1.call last otherwise := by
  have h : ∀ r ∈ [failingOn "North", failingOn "South"],
      r.Undisturbed (fun _ call => call.once) storekeeper 0 ⟨"Store", "count", []⟩ := by
    intro r hr
    simp only [List.mem_cons, List.not_mem_nil, or_false] at hr
    rcases hr with rfl | rfl <;> exact failingOn_undisturbed ..
  exact recovered_as_first 0 rfl h (Ledger.sound_empty _) storekeeper.own_empty rfl

/-- The call in the south is recovered by the north, and not as the south would recover it. -/
theorem recovered_elsewhere :
    ∃ seen t, inTwoSites.Returns (Session.begin ()) seen t ∧
      ∃ e ∈ seen, ∃ g, storekeeper.guardOf? e.1.call.method e.1.call.target = some g ∧
        g.GaveUp e.2 ∧ ∀ last otherwise,
          e.2.result ≠ storekeeper.recoveredAs e.1.call.target e.1.call last otherwise := by
  have hsaid : (inTwoSites.run (Session.begin ())).map (fun p => p.1.map fun e =>
      (e.2.attempts.map (·.outcome.toOption.isSome), e.2.result.toOption.map Json.compact)) =
        some [([false], some "\"North\""), ([false], some "\"North\"")] := by decide +kernel
  obtain ⟨⟨seen, t⟩, hrun, hsaid⟩ := Option.map_eq_some_iff.mp hsaid
  obtain ⟨⟨_, north⟩, later, rfl, rfl, hlater⟩ :=
    List.map_eq_cons_iff.mp (Action.inOrder_rounds hrun)
  obtain ⟨⟨_, south⟩, rfl, rfl⟩ := List.map_eq_singleton_iff.mp hlater
  obtain ⟨hatt, hres⟩ := Prod.mk.inj (List.cons_eq_cons.mp (List.cons_eq_cons.mp hsaid).2).1
  obtain ⟨last, hlast, hfailed⟩ := List.map_eq_singleton_iff.mp hatt
  have hup : ∃ prior last f, south.attempts = prior ++ [last] ∧ last.outcome = .error f := by
    cases ho : last.outcome with
    | ok value => rw [ho] at hfailed; cases hfailed
    | error f => exact ⟨[], last, f, hlast, ho⟩
  refine ⟨_, t, hrun, _, .tail _ (.head _), _, rfl, hup, fun last otherwise hsame => ?_⟩
  have hown : storekeeper.recoveredAs (failingOn "South").call.target (failingOn "South").call last
      otherwise = .ok (.str "South") := rfl
  dsimp only at hsame hres
  rw [hsame, hown] at hres
  exact absurd hres (by decide +kernel)

end Dispatch

end CallGuard
