import CallGuard.Proofs.Capacity
import CallGuard.Proofs.Frames
import CallGuard.Proofs.Stateful
/-! # Setting earlier attempts aside is forgetting the key first

A call that sets earlier attempts aside stores a new sequence over what is stored for its key; a
call that finds no entry stores one as well, by another way and with a check for room of its own. On
a ledger that holds no more keys than its capacity the two come to the same, if the key is forgotten
before the second one: forgetting makes room just where storing over needs none. After that the
ledgers hold the same but for the order in which the keys came in (`Same`), and nothing that a call
with a key does to a ledger can tell such ledgers apart, so the two calls go on side by side. -/

namespace CallGuard

variable {ι γ α β : Type}

/-! ## Ledgers that hold the same -/

namespace Ledger

variable {l l' : Ledger} {key : String}

/-- Both hold the same, in whatever order the keys came in. -/
structure Same (l l' : Ledger) : Prop where
  contexts : l'.contexts = l.contexts
  capacity : l'.live.capacity = l.live.capacity
  keys : l'.live.entries.keys.Perm l.live.entries.keys
  live : ∀ k, l'.live.get? k = l.live.get? k

/-- What a ledger can have come to hold: no more keys than it has room for, none of them twice, and
a context for each. The contexts may be any. -/
structure Tidy (l : Ledger) : Prop where
  within : l.live.size ≤ l.live.capacity
  nodup : l.live.entries.keys.Nodup
  opened : ∀ {k : String} {n : SequenceId}, l.live.get? k = some n → n < l.contexts.size

theorem Same.get? (h : Same l l') (k : String) : l'.get? k = l.get? k := by
  unfold Ledger.get? context
  rw [h.live, h.contexts]

theorem keys_forget (l : Ledger) (key : String) :
    (l.forget key).live.entries.keys = l.live.entries.keys.filter (· ≠ key) :=
  l.live.entries.keys_erase key

theorem Same.size (h : Same l l') : l'.live.size = l.live.size := by
  have hlength := h.keys.length_eq
  rw [Dict.length_keys, Dict.length_keys] at hlength
  exact hlength

theorem Same.forget (h : Same l l') (key : String) : Same (l.forget key) (l'.forget key) where
  contexts := h.contexts
  capacity := h.capacity
  keys := by
    rw [keys_forget, keys_forget]
    exact h.keys.filter _
  live k := by
    change (l'.live.remove key).get? k = (l.live.remove key).get? k
    rw [BoundedMap.get?_remove, BoundedMap.get?_remove, h.live]

theorem Same.release (h : Same l l') (policy : Policy) (key : String) :
    Same (l.release policy key) (l'.release policy key) := by
  unfold Ledger.release
  split
  · exact h
  · exact h.forget key

theorem Same.setContext (h : Same l l') (n : SequenceId) (x : Context) :
    Same (l.setContext n x) (l'.setContext n x) where
  contexts := by simp [Ledger.setContext, h.contexts]
  capacity := h.capacity
  keys := h.keys
  live := h.live

theorem Same.context (h : Same l l') (n : SequenceId) : l'.context n = l.context n := by
  unfold Ledger.context
  rw [h.contexts]

theorem live_forget_self (l : Ledger) (key : String) :
    (l.forget key).live.get? key = none := by
  change (l.live.remove key).get? key = none
  rw [BoundedMap.get?_remove, if_pos rfl]

/-- Nothing is forgotten with a key that is not stored. -/
theorem same_forget (hnone : l.live.get? key = none) : Same l (l.forget key) where
  contexts := rfl
  capacity := rfl
  keys := by
    have hnew : key ∉ l.live.entries.keys := by
      rw [Dict.mem_keys]
      simp [show l.live.entries.get? key = none from hnone]
    rw [keys_forget, List.filter_eq_self.mpr]
    intro k hk
    simp only [ne_eq, decide_eq_true_eq]
    intro heq
    exact hnew (heq ▸ hk)
  live k := by
    change (l.live.remove key).get? k = _
    rw [BoundedMap.get?_remove]
    split
    · next hk => rw [hk, hnone]
    · rfl

/-- What is stored over a key could have been stored after forgetting it. -/
theorem Tidy.same_opening (h : l.Tidy) (key : String) (now : Nat) :
    Same (l.opening key now) ((l.forget key).opening key now) where
  contexts := rfl
  capacity := rfl
  keys := by
    have hgone : key ∉ (l.forget key).live.entries.keys := by simp [keys_forget]
    change (Dict.insert _ key _).keys.Perm (Dict.insert _ key _).keys
    rw [Dict.keys_insert, Dict.keys_insert, if_neg hgone, keys_forget]
    split
    · next hk =>
      have hfilter : l.live.entries.keys.filter (· ≠ key) = l.live.entries.keys.erase key := by
        rw [h.nodup.erase_eq_filter]
        exact List.filter_congr fun k _ => by simp [bne, beq_eq_decide]
      rw [hfilter]
      exact (List.perm_append_singleton _ _).trans (List.perm_cons_erase hk).symm
    · next hk =>
      rw [List.filter_eq_self.mpr]
      intro k hmem
      simp only [ne_eq, decide_eq_true_eq]
      intro heq
      exact hk (heq ▸ hmem)
  live k := by
    rw [get?_opening, get?_opening]
    split
    · rfl
    · next hk =>
      change (l.live.remove key).get? k = _
      rw [BoundedMap.get?_remove, if_neg hk]

/-- Forgetting a key that is stored makes room. -/
theorem Tidy.isFull_forget (h : l.Tidy) {n : SequenceId} (hn : l.live.get? key = some n) :
    (l.forget key).live.isFull = false := by
  have hmem : key ∈ l.live.entries.keys := by
    rw [Dict.mem_keys, show l.live.entries.get? key = some n from hn]
    rfl
  have hless : (l.forget key).live.entries.keys.length < l.live.entries.keys.length := by
    rw [keys_forget]
    exact List.length_filter_lt_length_iff_exists.mpr ⟨key, hmem, by simp⟩
  rw [Dict.length_keys, Dict.length_keys] at hless
  have hroom : (l.forget key).live.size < l.live.capacity := Nat.lt_of_lt_of_le hless h.within
  exact decide_eq_false (Nat.not_le_of_lt hroom)

/-- **Setting earlier attempts aside opens what forgetting the key first opens**, or there is no
room for the key in either case. -/
theorem Tidy.sequenceFor_refreshed (h : l.Tidy) (key : String) (now : Nat) :
    (Same l (l.forget key) ∧ l.sequenceFor key true now = .error ⟨l.live.capacity⟩ ∧
      (l.forget key).sequenceFor key false now = .error ⟨l.live.capacity⟩) ∨
    (Same (l.opening key now) ((l.forget key).opening key now) ∧
      l.sequenceFor key true now = .ok (l.contexts.size, l.opening key now) ∧
      (l.forget key).sequenceFor key false now =
        .ok (l.contexts.size, (l.forget key).opening key now)) := by
  have hgone := l.live_forget_self key
  have hsame := h.same_opening key now
  cases hl : l.live.get? key with
  | some n =>
    have hknown : l.live.contains key = true := congrArg Option.isSome hl
    refine .inr ⟨hsame, ?_, sequenceFor_new hgone (h.isFull_forget hl) false now⟩
    rw [sequenceFor_renewing, hknown]
    rfl
  | none =>
    have hforget := same_forget hl
    have hfull : (l.forget key).live.isFull = l.live.isFull := by
      unfold BoundedMap.isFull
      rw [hforget.size, hforget.capacity]
    cases hf : l.live.isFull with
    | true =>
      exact .inl ⟨hforget, sequenceFor_full hl hf true now,
        sequenceFor_full hgone (hfull.trans hf) false now⟩
    | false =>
      exact .inr ⟨hsame, sequenceFor_new hl hf true now,
        sequenceFor_new hgone (hfull.trans hf) false now⟩

/-! ## Steps side by side -/

/-- From ledgers related by `R` the steps come to the same and report the same, and leave ledgers
related by `R'`. -/
def Agree (R R' : Ledger → Ledger → Prop) (step step' : Ledger → α × Ledger × List Event) : Prop :=
  ∀ l l', R l l' → ∃ a m m' events, step l = (a, m, events) ∧ step' l' = (a, m', events) ∧ R' m m'

/-- The second ledger is what is left of the first without the key. -/
def Forgotten (key : String) (l l' : Ledger) : Prop := l.Tidy ∧ l' = l.forget key

theorem ask_refreshed (policy : Policy) (key : String) (created asked : Nat) :
    Agree (Forgotten key) Same (·.ask policy key true created asked)
      (·.ask policy key false created asked) := by
  intro l l' ⟨h, hl'⟩
  subst hl'
  change ∃ a m m' events, l.ask policy key true created asked = (a, m, events) ∧
    (l.forget key).ask policy key false created asked = (a, m', events) ∧ Same m m'
  unfold ask
  rcases h.sequenceFor_refreshed key created with ⟨hsame, hs, hs'⟩ | ⟨hsame, hs, hs'⟩
  · rw [hs, hs']
    exact ⟨_, _, _, _, rfl, rfl, hsame⟩
  · rw [hs, hs']
    have hset := hsame.setContext l.contexts.size
      (policy.check ((l.opening key created).context l.contexts.size) asked).context
    unfold check
    dsimp only
    rw [hsame.context, hset.context]
    split
    · exact ⟨_, _, _, _, rfl, rfl, hset⟩
    · exact ⟨_, _, _, _, rfl, rfl, hset.release policy key⟩

theorem succeed_agree (policy : Policy) (key : String) :
    Agree Same Same (fun l => ((), l.succeed policy key, []))
      (fun l => ((), l.succeed policy key, [])) :=
  fun _ _ h => ⟨_, _, _, _, rfl, rfl, h.release policy key⟩

theorem fail_agree (policy : Policy) (n : SequenceId) (failure : Failure) (now : Nat) :
    Agree Same Same (·.fail policy n failure now) (·.fail policy n failure now) := by
  intro l l' h
  refine ⟨_, _, _, _, rfl, ?_, h.setContext n _⟩
  change l'.fail policy n failure now = _
  unfold fail
  rw [h.context]

/-! ## Tidy ledgers -/

theorem tidy_empty (capacity : Nat) : (empty capacity).Tidy where
  within := Nat.zero_le _
  nodup := List.nodup_nil
  opened h := by cases h

theorem Tidy.setContext (h : l.Tidy) (n : SequenceId) (x : Context) : (l.setContext n x).Tidy where
  within := h.within
  nodup := h.nodup
  opened hk := by simpa [Ledger.setContext] using h.opened hk

theorem Tidy.release (h : l.Tidy) (policy : Policy) (key : String) :
    (l.release policy key).Tidy := by
  unfold Ledger.release
  split
  · exact h
  · refine ⟨?_, ?_, fun {k n} hk => ?_⟩
    · exact Nat.le_trans (l.live.entries.size_erase_le key) h.within
    · exact Dict.nodup_erase h.nodup key
    · change (l.live.remove key).get? k = some n at hk
      rw [BoundedMap.get?_remove] at hk
      split at hk
      · cases hk
      · exact h.opened hk

/-- There is an entry for the key, or room for one. -/
theorem Tidy.opening (h : l.Tidy) (hroom : l.live.excludes key = false) (now : Nat) :
    (l.opening key now).Tidy where
  within := BoundedMap.size_store_le h.within hroom l.contexts.size
  nodup := Dict.nodup_insert h.nodup key l.contexts.size
  opened {k n} hk := by
    rw [get?_opening] at hk
    change n < (l.contexts.push _).size
    rw [Array.size_push]
    split at hk
    · cases hk
      exact Nat.lt_succ_self _
    · exact Nat.lt_succ_of_lt (h.opened hk)

theorem Tidy.sequenceFor (h : l.Tidy) {refresh : Bool} {now : Nat} {n : SequenceId}
    (hs : l.sequenceFor key refresh now = .ok (n, l')) : l'.Tidy := by
  cases hl : l.live.get? key with
  | some m =>
    have hroom : l.live.excludes key = false := by simp [BoundedMap.excludes, hl]
    cases refresh with
    | false =>
      rw [sequenceFor_known hl] at hs
      cases hs
      exact h
    | true =>
      have hknown : l.live.contains key = true := congrArg Option.isSome hl
      rw [sequenceFor_renewing, hknown] at hs
      cases hs
      exact h.opening hroom now
  | none =>
    cases hf : l.live.isFull with
    | true =>
      rw [sequenceFor_full hl hf] at hs
      cases hs
    | false =>
      have hroom : l.live.excludes key = false := by simp [BoundedMap.excludes, hf]
      rw [sequenceFor_new hl hf] at hs
      cases hs
      exact h.opening hroom now

theorem Tidy.find (h : l.Tidy) (key : String) (refresh : Bool) (now : Nat) :
    (l.find key refresh now).2.1.Tidy := by
  unfold Ledger.find
  split
  · exact h
  · next n m hs => exact h.sequenceFor hs

/-! ## The other keys -/

/-- What `l'` has besides `l` concerns the key, or sequences that were opened since. -/
structure Aside (l : Ledger) (key : String) (l' : Ledger) : Prop where
  live : ∀ k, k ≠ key → l'.live.get? k = l.live.get? k
  contexts : ∀ n, n < l.contexts.size → l'.contexts[n]? = l.contexts[n]?

theorem Aside.refl (l : Ledger) (key : String) : l.Aside key l := ⟨fun _ _ => rfl, fun _ _ => rfl⟩

theorem aside_opening (l : Ledger) (key : String) (now : Nat) :
    l.Aside key (l.opening key now) where
  live k hk := by rw [get?_opening, if_neg hk]
  contexts n hn := by simp [opening, Array.getElem?_push, Nat.ne_of_lt hn]

theorem Aside.setContext (h : l.Aside key l') {n : SequenceId} (hn : l.contexts.size ≤ n)
    (x : Context) : l.Aside key (l'.setContext n x) where
  live := h.live
  contexts m hm := by
    have hne : n ≠ m := Nat.ne_of_gt (Nat.lt_of_lt_of_le hm hn)
    rw [← h.contexts m hm]
    simp [Ledger.setContext, hne]

theorem Aside.release (h : l.Aside key l') (policy : Policy) :
    l.Aside key (l'.release policy key) := by
  unfold Ledger.release
  split
  · exact h
  · refine ⟨fun k hk => ?_, h.contexts⟩
    change (l'.live.remove key).get? k = _
    rw [BoundedMap.get?_remove, if_neg hk, h.live k hk]

theorem Aside.get? (h : l.Aside key l') (ht : l.Tidy) {k : String} (hk : k ≠ key) :
    l'.get? k = l.get? k := by
  unfold Ledger.get?
  rw [h.live k hk]
  refine Option.map_congr fun n hn => ?_
  unfold context
  rw [h.contexts n (ht.opened hn)]

/-- A call that sets earlier attempts aside is about a sequence of its own. -/
theorem aside_ask {policy : Policy} {created asked : Nat} {admission : Admission}
    {events : List Event}
    (h : l.ask policy key true created asked = (admission, l', events)) :
    l.Aside key l' ∧ ∀ n, admission = .admitted n → n = l.contexts.size := by
  have hopen := aside_opening l key created
  unfold ask at h
  rw [sequenceFor_renewing] at h
  split at h
  · next heq =>
    cases h
    exact ⟨.refl l key, nofun⟩
  · next n m heq =>
    split at heq
    · cases heq
    · cases heq
      have hset := hopen.setContext (Nat.le_refl _)
        (policy.check ((l.opening key created).context l.contexts.size) asked).context
      dsimp only at h
      split at h
      · cases h
        exact ⟨hset, fun n hn => (Admission.admitted.inj hn).symm⟩
      · cases h
        exact ⟨hset.release policy, nofun⟩

end Ledger

/-! ## Calls side by side -/

/-- The second session differs from the first at most in one ledger, and there as `R` says. -/
inductive Session.Beside (i : Nat) (R : Ledger → Ledger → Prop) (s : Session ι γ) :
    Session ι γ → Prop
  | mk (shelf : Shelf Ledger) : R (s.ledgers.get i) (shelf.get i) →
      (∀ j, j ≠ i → shelf.get j = s.ledgers.get j) → Beside i R s { s with ledgers := shelf }

namespace Action

variable {i : Nat} {P Q S : Session ι γ → Session ι γ → Prop} {R R' : Ledger → Ledger → Prop}
  {act act' : Action ι γ α} {next next' : α → Action ι γ β}

/-- Begun in sessions related by `P`, the second action ends where the first does, with the same
result, and leaves sessions related by `Q`. -/
def Parallel (P Q : Session ι γ → Session ι γ → Prop) (act act' : Action ι γ α) : Prop :=
  ∀ s s', P s s' → ∀ a t, act.Returns s a t → ∃ t', act'.Returns s' a t' ∧ Q t t'

/-- The action cannot tell ledgers that hold the same apart, and leaves such ledgers. -/
def Blind (i : Nat) (act : Action ι γ α) : Prop :=
  Parallel (Session.Beside i Ledger.Same) (Session.Beside i Ledger.Same) act act

theorem Parallel.pure (a : α) : Parallel P P (pure a : Action ι γ α) (pure a) := by
  intro s s' hs b t h
  cases h
  exact ⟨s', rfl, hs⟩

theorem Parallel.bind (h : Parallel P Q act act') (hn : ∀ a, Parallel Q S (next a) (next' a)) :
    Parallel P S (act >>= next) (act' >>= next') := by
  intro s s' hs b u hb
  obtain ⟨a, t, ha, hb⟩ := hb.of_bind
  obtain ⟨t', ha', ht⟩ := h s s' hs a t ha
  obtain ⟨u', hb', hu⟩ := hn a t t' ht b u hb
  exact ⟨u', ha'.bind hb', hu⟩

theorem parallel_now :
    Parallel (Session.Beside i R) (Session.Beside i R) (now : Action ι γ Nat) now := by
  intro s s' hs a t h
  obtain ⟨shelf, hhere, hother⟩ := hs
  cases h
  exact ⟨_, rfl, shelf, hhere, hother⟩

theorem parallel_emit (events : List Event) :
    Parallel (Session.Beside i R) (Session.Beside i R) (emit events : Action ι γ Unit)
      (emit events) := by
  intro s s' hs a t h
  obtain ⟨shelf, hhere, hother⟩ := hs
  cases h
  exact ⟨_, rfl, shelf, hhere, hother⟩

theorem parallel_pause (backoff : Backoff) (sleeper : Sleeper) (attempt : Nat) :
    Parallel (Session.Beside i R) (Session.Beside i R)
      (pause backoff sleeper attempt : Action ι γ Unit) (pause backoff sleeper attempt) := by
  intro s s' hs a t h
  obtain ⟨shelf, hhere, hother⟩ := hs
  cases backoff <;> cases h <;> exact ⟨_, rfl, shelf, hhere, hother⟩

theorem parallel_onLedger {step step' : Ledger → α × Ledger × List Event}
    (h : Ledger.Agree R R' step step') :
    Parallel (Session.Beside i R) (Session.Beside i R') (onLedger i step : Action ι γ α)
      (onLedger i step') := by
  intro s s' hs b t ht
  obtain ⟨shelf, hhere, hother⟩ := hs
  obtain ⟨a, m, m', events, hstep, hstep', hleft⟩ := h _ _ hhere
  have hrun : (onLedger i step' : Action ι γ α).Returns { s with ledgers := shelf } a
      { s with ledgers := shelf.set i m', events := s.events ++ events } := by
    simp only [Returns, run_onLedger, hstep']
  simp only [Returns, run_onLedger, hstep] at ht
  cases ht
  refine ⟨_, hrun, shelf.set i m', ?_, fun j hj => ?_⟩
  · simpa using hleft
  · simp [Shelf.get_set, hj, hother j hj]

end Action

namespace Execution

open CallGuard.Action

variable {i : Nat} {call : Call ι γ} {terms : Terms} {R : Ledger → Ledger → Prop}

theorem once_blind (h : call.proceed.Blind i) : call.once.Blind i :=
  Parallel.bind h fun _ => .pure _

theorem recover_blind (r : Recoverer) (call : Call ι γ) (last : Failure) :
    (recover r call last).Blind i :=
  (parallel_emit _).bind fun _ => .pure _

theorem refuse_blind (h : call.proceed.Blind i) (context : Context) :
    (refuse terms call context).Blind i := by
  unfold refuse
  split
  · exact recover_blind _ call _
  · split
    · exact .pure _
    · exact .pure _
    · exact once_blind h

/-- **Calls with keys go on side by side** if they are answered alike. -/
theorem stateful_parallel (key key' : RetryKey) (hkey : key'.key = key.key)
    (hask : ∀ created asked, Ledger.Agree R Ledger.Same
      (·.ask terms.policy key.key key.refresh created asked)
      (·.ask terms.policy key.key key'.refresh created asked))
    (hcall : call.proceed.Blind i) :
    Parallel (Session.Beside i R) (Session.Beside i Ledger.Same) (stateful i terms key call)
      (stateful i terms key' call) := by
  rw [stateful_uninterrupted, stateful_uninterrupted]
  unfold admitted
  rw [hkey]
  refine parallel_now.bind fun created => parallel_now.bind fun asked => ?_
  refine (parallel_onLedger (hask created asked)).bind fun admission => ?_
  cases admission with
  | full capacity => exact .pure _
  | refused context => exact refuse_blind hcall context
  | admitted n =>
    refine Parallel.bind hcall fun outcome => ?_
    cases outcome with
    | ok value =>
      exact (parallel_onLedger (Ledger.succeed_agree _ _)).bind fun _ => .pure _
    | error f =>
      refine parallel_now.bind fun failed => ?_
      refine (parallel_onLedger (Ledger.fail_agree _ n f failed)).bind fun setback => ?_
      refine (parallel_emit _).bind fun _ => ?_
      dsimp only
      split
      · exact (parallel_pause _ _ _).bind fun _ => .pure _
      · exact .pure _

/-- Calls with keys keep a ledger tidy, if what else happens while they are made does so. -/
theorem stateful_tidy (key : RetryKey)
    (hcall : call.proceed.Preserves fun s => (s.ledgers.get i).Tidy) :
    (stateful i terms key call).Preserves fun s => (s.ledgers.get i).Tidy := by
  refine stateful_preserves_steps (indifferent_ledgers fun shelf => (shelf.get i).Tidy)
    (fun created => onLedger_preserves fun l h => h.find ..)
    (fun n asked => onLedger_preserves fun l h => h.setContext ..)
    (fun n => onLedger_preserves fun l h => h) (onLedger_preserves fun l h => h.release ..)
    (fun n f now => onLedger_preserves fun l h => h.setContext ..) hcall

/-- A call that sets earlier attempts aside leaves the other keys alone, if it does not touch the
ledger while it is made. -/
theorem stateful_aside {key : String} {s t : Session ι γ} {result : Result}
    (hend : call.proceed.Ends)
    (hcall : ∀ l, call.proceed.Preserves fun s => s.ledgers.get i = l)
    (ht : (stateful i terms ⟨key, true⟩ call).Returns s result t) :
    (s.ledgers.get i).Aside key (t.ledgers.get i) := by
  rcases h : answer s i terms.policy ⟨key, true⟩ with ⟨admission, l, events⟩
  obtain ⟨haside, hnew⟩ := Ledger.aside_ask h
  have hl : (asked s i l events).ledgers.get i = l := ledger_asked s i l events
  cases admission with
  | full capacity =>
    obtain ⟨-, rfl⟩ := ht.unique (full_returns h)
    rw [hl]
    exact haside
  | refused x =>
    obtain ⟨result', u, hu⟩ := refuse_ends terms hend x (asked s i l events)
    obtain ⟨-, rfl⟩ := ht.unique (refused_returns h hu)
    rw [refuse_preserves (indifferent_ledgers fun shelf => shelf.get i = l) (hcall l) x _ _ _ hu hl]
    exact haside
  | admitted n =>
    obtain ⟨outcome, u, hu⟩ := hend (asked s i l events)
    have hul : u.ledgers.get i = l := hcall l _ outcome u hu hl
    cases outcome with
    | ok value =>
      obtain ⟨w, hw, hwl, -⟩ := success_returns h hu
      obtain ⟨-, rfl⟩ := ht.unique hw
      rw [hwl, hul]
      exact haside.release terms.policy
    | error f =>
      obtain ⟨w, hw, hwl, -⟩ := failure_returns h hu
      obtain ⟨-, rfl⟩ := ht.unique hw
      rw [hwl, hul]
      exact haside.setContext (Nat.le_of_eq (hnew n rfl).symm) _

end Execution

/-- Under observation a call tells no more apart than it does anyway. -/
theorem Call.watched_blind {i : Nat} {call : Call ι γ} (hend : call.proceed.Ends)
    (h : call.proceed.Blind i) : call.watched.proceed.Blind i := by
  intro s s' hs outcome t ht
  obtain ⟨shelf, hhere, hother⟩ := hs
  obtain ⟨_, u, hu⟩ := hend (s.withGuest s.guest.own)
  obtain ⟨rfl, rfl⟩ := ht.unique (Call.watched_returns hu)
  obtain ⟨u', hu', hbeside⟩ := h _ _ (.mk shelf hhere hother) _ _ hu
  obtain ⟨shelf', hhere', hother'⟩ := hbeside
  exact ⟨_, Call.watched_returns (s := { s with ledgers := shelf }) hu', .mk shelf' hhere' hother'⟩

namespace Session

/-- The session without a key of a ledger. -/
def forgetting (s : Session ι γ) (i : Nat) (key : String) : Session ι γ :=
  { s with ledgers := s.ledgers.modify i (·.forget key) }

theorem beside_forgetting {s : Session ι γ} {i : Nat} (h : (s.ledgers.get i).Tidy)
    (key : String) : s.Beside i (Ledger.Forgotten key) (s.forgetting i key) := by
  refine .mk _ ⟨h, ?_⟩ fun j hj => ?_
  · simp [Shelf.get_modify]
  · simp [Shelf.get_modify, hj]

end Session

/-- **Setting earlier attempts aside is forgetting the key first.** Both calls show the same
attempts, pauses and result, and leave sessions that differ at most in the order of the keys of the
ledger. The other keys keep their entries if the call itself does not touch the ledger. -/
theorem Execution.refresh_as_forgotten {i : Nat} (terms : Terms) {call : Call ι γ}
    (he : terms.executor = .attempting i) (hend : call.proceed.Ends) (hcall : call.proceed.Blind i)
    (patience : Nat) (key : String) {s : Session ι γ} (hs : (s.ledgers.get i).Tidy) :
    ∃ v t t',
      (call.visit i key (Execution.run patience ⟨terms, some ⟨key, true⟩⟩)).Returns s v t ∧
      (call.visit i key (Execution.run patience ⟨terms, some ⟨key, false⟩⟩)).Returns
        (s.forgetting i key) { v with found := none } t' ∧
      t.Beside i Ledger.Same t' ∧
      ((∀ l, call.proceed.Preserves fun s => s.ledgers.get i = l) →
        ∀ k, k ≠ key → (t.ledgers.get i).get? k = (s.ledgers.get i).get? k) := by
  have hrun : ∀ refresh, (Execution.run patience ⟨terms, some ⟨key, refresh⟩⟩ :
      Call ι (Notes γ) → Action ι (Notes γ) Result) = stateful i terms ⟨key, refresh⟩ :=
    fun refresh => funext fun call => run_keyed he patience ⟨key, refresh⟩ call
  rw [hrun, hrun]
  have hwatch := Call.watched_ends hend
  have hends : (stateful i terms ⟨key, true⟩ call.watched).Ends := stateful_ends terms hwatch
  obtain ⟨result, t, ht⟩ := hends s.noting
  have hbeside : s.noting.Beside i (Ledger.Forgotten key) (s.forgetting i key).noting :=
    Session.beside_forgetting (s := s.noting) hs key
  obtain ⟨t', ht', hsame⟩ := stateful_parallel ⟨key, true⟩ ⟨key, false⟩ rfl
    (fun created asked => Ledger.ask_refreshed terms.policy key created asked)
    (Call.watched_blind hend hcall) _ _ hbeside result t ht
  obtain ⟨shelf, hhere, hother⟩ := hsame
  have hfound : ((s.forgetting i key).ledgers.get i).get? key = none := by
    change (((s.ledgers.modify i (·.forget key)).get i).get? key) = none
    rw [Shelf.get_modify, if_pos rfl]
    unfold Ledger.get?
    rw [Ledger.live_forget_self, Option.map_none]
  have hseen : Visit.of i key (s.forgetting i key).noting { t with ledgers := shelf } result =
      { Visit.of i key s.noting t result with found := none } := by
    change Visit.mk _ _ _ _ _ (((s.forgetting i key).ledgers.get i).get? key)
      ((shelf.get i).get? key) = _
    rw [hfound, hhere.get? key]
    rfl
  refine ⟨_, _, _, Call.visit_returns ht, ?_, .mk shelf hhere hother, fun hkeeps k hk => ?_⟩
  · rw [← hseen]
    exact Call.visit_returns ht'
  · exact (stateful_aside hwatch (fun l => Call.watched_preserves hend (hkeeps l)) ht).get? hs hk

/-- Room for one key, which has an open circuit. -/
def Ledger.crowded : Ledger :=
  ⟨#[⟨1, some ⟨⟨.root "Down" "Down", "down"⟩, []⟩, 0, true⟩], ⟨1, ⟨[("stock", 0)]⟩⟩⟩

/-- Terms of a circuit that is used up by one failure. -/
def Terms.touchy : Terms :=
  ⟨.circuit ⟨⟨1, .retryAll, Nat.one_pos⟩, Duration.ofMillis 5000, Duration.ofMillis 20000, "stock"⟩,
    .none, .instant, none, .attempting 0⟩

theorem Execution.refresh_as_forgotten_crowded :
    let call : Call Unit Unit := ⟨⟨"Stock", "count", []⟩, ⟨"Stock", none⟩, [],
      pure (.error ⟨⟨.root "Down" "Down", "down"⟩, []⟩)⟩
    let s : Session Unit Unit := { Session.begin () with ledgers := ⟨#[Ledger.crowded]⟩ }
    ∃ v t t',
      (call.visit 0 "stock" (Execution.run 0 ⟨Terms.touchy, some ⟨"stock", true⟩⟩)).Returns s v t ∧
      (call.visit 0 "stock" (Execution.run 0 ⟨Terms.touchy, some ⟨"stock", false⟩⟩)).Returns
        (s.forgetting 0 "stock") { v with found := none } t' ∧
      t.Beside 0 Ledger.Same t' ∧
      ∀ k, k ≠ "stock" → (t.ledgers.get 0).get? k = Ledger.crowded.get? k := by
  intro call s
  have htidy : (s.ledgers.get 0).Tidy := by
    refine ⟨by decide, by decide, fun {k n} hk => ?_⟩
    change (if "stock" = k then some 0 else none) = some n at hk
    split at hk
    · cases hk; decide
    · cases hk
  have hend : call.proceed.Ends := fun s => ⟨_, s, rfl⟩
  obtain ⟨v, t, t', hv, hv', hsame, hothers⟩ := Execution.refresh_as_forgotten (i := 0)
    Terms.touchy rfl hend (.pure _) 0 "stock" htidy
  exact ⟨v, t, t', hv, hv', hsame, hothers fun l => .pure _⟩

end CallGuard
