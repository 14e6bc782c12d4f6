import CallGuard.Proofs.Ledger.Sequences
/-! # Admission and completion, seen from the key

An admission is about one sequence: that of the key's entry, or a new one. `Sound.ask` says all that
it can come to: no room for an entry, or what the policy says of the context of the sequence;
`ask_cases` says the same of what is found under the key. `fail_spec` and the laws of `release` say
what completion does. All of them keep the ledger sound and the other keys as they are. -/

namespace CallGuard

namespace Ledger

variable {l : Ledger} {key : String}

/-! ## Finding the sequence -/

/-- Opening a sequence for a key that has none. -/
def opening (l : Ledger) (key : String) (now : Nat) : Ledger :=
  { contexts := l.contexts.push (Context.fresh now)
    live := { l.live with entries := l.live.entries.insert key l.contexts.size } }

theorem get?_opening (l : Ledger) (key k : String) (now : Nat) :
    (l.opening key now).live.get? k = if k = key then some l.contexts.size else l.live.get? k :=
  Dict.get?_insert ..

theorem Sound.opening (h : l.Sound) (key : String) (now : Nat) : (l.opening key now).Sound where
  opened {k n} hk := by
    rw [get?_opening] at hk
    simp only [Ledger.opening, Array.size_push]
    split at hk
    · cases hk; exact Nat.lt_succ_self _
    · exact Nat.lt_succ_of_lt (h.opened hk)
  apart {j k n} hj hk := by
    rw [get?_opening] at hj hk
    split at hj
    · rename_i hjk
      split at hk
      · rename_i hkk; rw [hjk, hkk]
      · cases hj; exact absurd (h.opened hk) (Nat.lt_irrefl _)
    · split at hk
      · cases hk; exact absurd (h.opened hj) (Nat.lt_irrefl _)
      · exact h.apart hj hk
  coherent {n x} hx := by
    simp only [Ledger.opening, Array.getElem?_push] at hx
    split at hx
    · cases hx; exact Context.coherent_fresh now
    · exact h.coherent hx

theorem current?_opening_self (l : Ledger) (key : String) (now : Nat) :
    (l.opening key now).current? key = some (l.contexts.size, Context.fresh now) :=
  current?_eq_some.mpr ⟨by simp [get?_opening], by simp [opening]⟩

theorem Sound.opening_elsewhere (h : l.Sound) (key : String) (now : Nat) :
    SameElsewhere key l (l.opening key now) := by
  intro k hk
  unfold current?
  rw [get?_opening, if_neg hk]
  cases hl : l.live.get? k with
  | none => rfl
  | some n =>
    have hn : n ≠ l.contexts.size := Nat.ne_of_lt (h.opened hl)
    simp [Ledger.opening, Array.getElem?_push, hn]

/-- What was opened before is current only where it was before. -/
structure Extends (l l' : Ledger) : Prop where
  size_le : l.contexts.size ≤ l'.contexts.size
  live : ∀ {k : String} {n : SequenceId}, n < l.contexts.size → l'.live.get? k = some n →
    l.live.get? k = some n

theorem Extends.refl (l : Ledger) : Extends l l := ⟨Nat.le_refl _, fun _ h => h⟩

theorem Extends.trans {l' l'' : Ledger} (h : Extends l l') (h' : Extends l' l'') : Extends l l'' :=
  ⟨Nat.le_trans h.size_le h'.size_le,
    fun hn hk => h.live hn (h'.live (Nat.lt_of_lt_of_le hn h.size_le) hk)⟩

theorem extends_opening (l : Ledger) (key : String) (now : Nat) :
    Extends l (l.opening key now) where
  size_le := by simp [opening]
  live hn hk := by
    rw [get?_opening] at hk
    split at hk
    · cases hk; exact absurd hn (Nat.lt_irrefl _)
    · exact hk

theorem extends_setContext (l : Ledger) (n : SequenceId) (x : Context) :
    Extends l (l.setContext n x) := ⟨by simp [setContext], fun _ h => h⟩

theorem extends_release (l : Ledger) (policy : Policy) (key : String) :
    Extends l (l.release policy key) := by
  unfold release
  split
  · exact .refl l
  · refine ⟨Nat.le_refl _, fun _ hk => ?_⟩
    simp only [forget, BoundedMap.get?_remove] at hk
    split at hk
    · cases hk
    · exact hk

theorem sequenceFor_renewing (l : Ledger) (key : String) (now : Nat) :
    l.sequenceFor key true now =
      if !l.live.contains key && l.live.isFull then .error ⟨l.live.capacity⟩
      else .ok (l.contexts.size, l.opening key now) := by
  unfold sequenceFor renew BoundedMap.put
  split <;> split <;> first | rfl | contradiction

theorem sequenceFor_known {n : SequenceId} (h : l.live.get? key = some n) (now : Nat) :
    l.sequenceFor key false now = .ok (n, l) := by
  simp [sequenceFor, BoundedMap.getOrInsert, h]

theorem sequenceFor_new (h : l.live.get? key = none) (hroom : l.live.isFull = false)
    (refresh : Bool) (now : Nat) :
    l.sequenceFor key refresh now = .ok (l.contexts.size, l.opening key now) := by
  cases refresh with
  | false => simp [sequenceFor, BoundedMap.getOrInsert, h, hroom, opening, nextSequence]
  | true => rw [sequenceFor_renewing, hroom, Bool.and_false]; rfl

theorem sequenceFor_full (h : l.live.get? key = none) (hfull : l.live.isFull = true)
    (refresh : Bool) (now : Nat) :
    l.sequenceFor key refresh now = .error ⟨l.live.capacity⟩ := by
  cases refresh with
  | false => simp [sequenceFor, BoundedMap.getOrInsert, h, hfull]
  | true =>
    have hc : l.live.contains key = false := by
      change (l.live.get? key).isSome = false
      rw [h]; rfl
    rw [sequenceFor_renewing, hc, hfull]; rfl

/-- The sequence that an admission is about, and its context: those of the entry, or new ones where
there is none or where earlier attempts are set aside. -/
inductive Opens (l : Ledger) (key : String) (refresh : Bool) (now : Nat) :
    SequenceId → Context → Prop
  | known {n : SequenceId} {x : Context} : refresh = false → l.current? key = some (n, x) →
      Opens l key refresh now n x
  | new : (refresh = false → l.current? key = none) →
      Opens l key refresh now l.contexts.size (Context.fresh now)

/-- The sequence is that of the key, or a new one if there is room for it. -/
theorem Sound.opens (h : l.Sound) (key : String) (refresh : Bool) (now : Nat) :
    (l.current? key = none ∧ l.live.isFull = true ∧
      l.sequenceFor key refresh now = .error ⟨l.live.capacity⟩) ∨
    ∃ n x l', l.Opens key refresh now n x ∧ l.sequenceFor key refresh now = .ok (n, l') ∧
      l'.Sound ∧ l'.current? key = some (n, x) ∧ SameElsewhere key l l' ∧ Extends l l' := by
  have hnew : (refresh = false → l.current? key = none) →
      l.sequenceFor key refresh now = .ok (l.contexts.size, l.opening key now) →
      ∃ n x l', l.Opens key refresh now n x ∧ l.sequenceFor key refresh now = .ok (n, l') ∧
        l'.Sound ∧ l'.current? key = some (n, x) ∧ SameElsewhere key l l' ∧ Extends l l' :=
    fun hopen hs => ⟨_, _, _, .new hopen, hs, h.opening key now, l.current?_opening_self key now,
      h.opening_elsewhere key now, extends_opening l key now⟩
  cases hl : l.live.get? key with
  | some n =>
    have hc := current?_eq_some.mpr ⟨hl, Array.getElem?_eq_getElem (h.opened hl)⟩
    right
    cases refresh with
    | false =>
      exact ⟨n, _, l, .known rfl hc, sequenceFor_known hl now, h, hc, .refl key l, .refl l⟩
    | true =>
      have hlive : l.live.contains key = true := by
        change (l.live.get? key).isSome = true
        rw [hl]; rfl
      exact hnew nofun (by rw [sequenceFor_renewing, hlive]; rfl)
  | none =>
    have hc : l.current? key = none := by unfold current?; rw [hl]; rfl
    cases hf : l.live.isFull with
    | true => exact .inl ⟨hc, rfl, sequenceFor_full hl hf refresh now⟩
    | false => exact .inr (hnew (fun _ => hc) (sequenceFor_new hl hf refresh now))

/-! ## Admission -/

/-- **What an admission comes to.** There is no room for an entry, or the policy answers for the
context of the sequence and leaves it like this, unless it is dropped with a refusal. -/
theorem Sound.ask (h : l.Sound) (policy : Policy) (key : String) (refresh : Bool)
    (created asked : Nat) :
    (l.current? key = none ∧ l.live.isFull = true ∧
      l.ask policy key refresh created asked = (.full l.live.capacity, l, [])) ∨
    ∃ n x l', l.Opens key refresh created n x ∧ l'.Sound ∧ SameElsewhere key l l' ∧
      Extends l l' ∧
      (((policy.check x asked).allowed = true ∧
        l.ask policy key refresh created asked =
          (.admitted n, l', (policy.check x asked).events) ∧
        l'.current? key = some (n, (policy.check x asked).context)) ∨
      ((policy.check x asked).allowed = false ∧
        l.ask policy key refresh created asked =
          (.refused (policy.check x asked).context, l', (policy.check x asked).events) ∧
        l'.current? key =
          if policy.isShared then some (n, (policy.check x asked).context) else none)) := by
  rcases h.opens key refresh created with ⟨hc, hf, hs⟩ | ⟨n, x, l', hopens, hs, hl', hc, hk, he⟩
  · exact .inl ⟨hc, hf, by simp [Ledger.ask, hs]⟩
  · right
    obtain ⟨hlive, hx⟩ := current?_eq_some.mp hc
    have hctx : l'.context n = x := by simp [context, hx]
    have hset := hl'.setContext (policy.check_coherent (hl'.coherent hx) asked) n
    have hent := current?_setContext_self hc (policy.check x asked).context
    have helse : SameElsewhere key l (l'.setContext n (policy.check x asked).context) :=
      hk.trans fun k hkk => current?_setContext_other (fun hlk => hkk (hl'.apart hlk hlive)) _
    have hext := he.trans (extends_setContext l' n (policy.check x asked).context)
    cases ha : (policy.check x asked).allowed with
    | true =>
      refine ⟨n, x, _, hopens, hset, helse, hext, .inl ⟨ha, ?_, hent⟩⟩
      simp only [Ledger.ask, Ledger.check, hs, hctx]
      exact if_pos ha
    | false =>
      refine ⟨n, x, _, hopens, hset.release policy key, helse.trans (release_elsewhere _ _ _),
        hext.trans (extends_release _ _ _), .inr ⟨ha, ?_, ?_⟩⟩
      · obtain ⟨hn, -⟩ := Array.getElem?_eq_some_iff.mp hx
        simp only [Ledger.ask, Ledger.check, hs, hctx, context_setContext_self hn]
        exact if_neg (by rw [ha]; decide)
      · rw [current?_release_self, hent]

/-- The context that a call finds under its key: none where it sets earlier attempts aside. -/
def found? (l : Ledger) (key : String) (refresh : Bool) : Option Context :=
  if refresh then none else l.get? key

theorem Sound.coherent_found (h : l.Sound) (key : String) (refresh : Bool) (now : Nat) :
    ((l.found? key refresh).getD (Context.fresh now)).Coherent := by
  cases hx : l.found? key refresh with
  | none => exact Context.coherent_fresh now
  | some x =>
    cases refresh with
    | true => cases hx
    | false => exact h.coherent_get? hx

theorem Opens.found {n : SequenceId} {x : Context} {refresh : Bool} {now : Nat}
    (ho : l.Opens key refresh now n x) (h : l.Sound) :
    (l.found? key refresh).getD (Context.fresh now) = x := by
  unfold found?
  cases ho with
  | known hr hc =>
    rw [hr, h.get?_eq, hc]; rfl
  | new hnone =>
    cases refresh with
    | true => rfl
    | false => rw [h.get?_eq, hnone rfl]; rfl

/-- What asking comes to, by what the policy says of the context that is found. -/
theorem ask_cases (h : l.Sound) (policy : Policy) (key : String) (refresh : Bool)
    (created asked : Nat) :
    let check := policy.check ((l.found? key refresh).getD (Context.fresh created)) asked
    (l.get? key = none ∧ l.live.isFull = true ∧
      l.ask policy key refresh created asked = (.full l.live.capacity, l, [])) ∨
    (check.allowed = false ∧ ∃ l', l.ask policy key refresh created asked =
        (.refused check.context, l', check.events) ∧ l'.Sound ∧
      l'.get? key = (if policy.isShared then some check.context else none) ∧
      SameElsewhere key l l') ∨
    (check.allowed = true ∧ ∃ n l', l.ask policy key refresh created asked =
        (.admitted n, l', check.events) ∧ l'.Sound ∧
      l'.current? key = some (n, check.context) ∧ SameElsewhere key l l') := by
  intro check
  rcases h.ask policy key refresh created asked with
    ⟨hc, hf, ha⟩ | ⟨n, x, l', hopens, hl', helse, -, hcase⟩
  · exact .inl ⟨by rw [h.get?_eq, hc]; rfl, hf, ha⟩
  · have hcheck : check = policy.check x asked := by
      change policy.check _ asked = _
      rw [hopens.found h]
    rw [hcheck]
    right
    rcases hcase with ⟨hyes, ha, hc⟩ | ⟨hno, ha, hc⟩
    · exact .inr ⟨hyes, n, l', ha, hl', hc, helse⟩
    · refine .inl ⟨hno, l', ha, hl', ?_, helse⟩
      rw [hl'.get?_eq, hc]
      split <;> rfl

/-! ## Completion -/

/-- A failure is counted in the context of the sequence, and the policy checks that. -/
theorem fail_spec (h : l.Sound) {n : SequenceId} {x : Context} (he : l.current? key = some (n, x))
    (policy : Policy) (f : Failure) (now : Nat) :
    let check := policy.check (x.fail f) now
    ∃ l', l.fail policy n f now = (⟨check.allowed, check.context.attempts⟩, l', check.events) ∧
      l'.Sound ∧ l'.get? key = some check.context := by
  intro check
  obtain ⟨-, hx⟩ := current?_eq_some.mp he
  have hcoh : check.context.Coherent := policy.check_coherent (x.coherent_fail f) now
  have hset := h.setContext hcoh n
  refine ⟨l.setContext n check.context, ?_, hset, ?_⟩
  · simp [fail, context, hx, check]
  · rw [hset.get?_eq, current?_setContext_self he check.context]; rfl

/-- Whatever sequence a call settles, a key with another one is as before. -/
theorem fail_elsewhere {n : SequenceId} (hn : l.live.get? key ≠ some n) (policy : Policy)
    (f : Failure) (now : Nat) : (l.fail policy n f now).2.1.current? key = l.current? key :=
  current?_setContext_other hn _

/-- The entry of a key counts a failure if it is of the key's current sequence. -/
theorem Sound.current?_fail (h : l.Sound) (policy : Policy) (n : SequenceId) (f : Failure)
    (now : Nat) (key : String) :
    (l.fail policy n f now).2.1.current? key = (l.current? key).map fun e =>
      if e.1 = n then (n, (policy.check (e.2.fail f) now).context) else e := by
  cases hc : l.current? key with
  | none =>
    have hlive : l.live.get? key ≠ some n := by rw [h.live_eq, hc]; nofun
    rw [fail_elsewhere hlive, hc]; rfl
  | some e =>
    obtain ⟨m, x⟩ := e
    rw [Option.map_some]
    by_cases hm : m = n
    · subst hm
      rw [if_pos rfl]
      obtain ⟨-, hx⟩ := current?_eq_some.mp hc
      rw [← current?_setContext_self hc]
      simp [Ledger.fail, context, hx]
    · have hlive : l.live.get? key ≠ some n := by
        rw [h.live_eq, hc]; intro he; exact hm (Option.some.inj he)
      rw [fail_elsewhere hlive, hc, if_neg hm]

theorem Sound.fail (h : l.Sound) (policy : Policy) (n : SequenceId) (f : Failure) (now : Nat) :
    (l.fail policy n f now).2.1.Sound :=
  h.setContext (policy.check_coherent (Context.coherent_fail _ f) now) n

theorem get?_succeed (h : l.Sound) {n : SequenceId} {x : Context}
    (he : l.current? key = some (n, x)) (policy : Policy) :
    (l.succeed policy key).get? key = if policy.isShared then some x else none := by
  rw [succeed, (h.release policy key).get?_eq, current?_release_self, he]
  split <;> rfl

end Ledger

end CallGuard
