import CallGuard.Proofs.Frames
import CallGuard.Proofs.Served
import CallGuard.Proofs.Stateless
/-! # The same call with and without a key

Without a key a call makes its attempts at once; with one it makes one attempt each time it is made
again. Both stop at the same outcome, since both ask the attempt limit about the same count and the
same failure, and both number their pauses by that count. `stops_alike` is the statement: making
the call with a key, as often as the call without a key made attempts, does the same one by one, and
what is left at the end is nothing after a success and a refusal after a failure. -/

namespace CallGuard

variable {ι γ α : Type}

/-- Does the same so many times. -/
def Action.times (act : Action ι γ α) : Nat → Action ι γ (List α)
  | 0 => return []
  | n + 1 => do
    let a ← act
    let rest ← times act n
    return a :: rest

/-- All pauses of a guarded call, those between its attempts first. -/
def Visit.allPauses (v : Visit) : List Pause := v.attempts.flatMap (·.pauses) ++ v.pauses

namespace Call

/-- The call comes to the outcomes of a sequence one after the other; what it keeps tells how many
it has come to. -/
def Follows (call : Call ι γ) (outcomes : Nat → Except Failure Json) (taken : γ → Nat) : Prop :=
  ∀ s, ∃ t, call.proceed.Returns s (outcomes (taken s.guest)) t ∧ taken t.guest = taken s.guest + 1

variable {call : Call ι γ} {outcomes : Nat → Except Failure Json} {taken : γ → Nat}

theorem Follows.ends (h : call.Follows outcomes taken) : call.proceed.Ends := by
  intro s
  obtain ⟨t, ht, -⟩ := h s
  exact ⟨_, t, ht⟩

/-- The notes tell of the outcomes from the `n`-th one on, and of all that were taken since. -/
def Tells (outcomes : Nat → Except Failure Json) (taken : γ → Nat) (n : Nat) (notes : Notes γ) :
    Prop :=
  notes.attempts.map (·.outcome) = (List.range' n notes.attempts.length).map outcomes ∧
    taken notes.own = n + notes.attempts.length

theorem Follows.tells (h : call.Follows outcomes taken) (n : Nat) :
    call.watched.proceed.Preserves fun s => Tells outcomes taken n s.guest := by
  intro s outcome u hu ⟨hsame, hcount⟩
  obtain ⟨t, ht, htaken⟩ := h (s.withGuest s.guest.own)
  obtain ⟨rfl, rfl⟩ := hu.unique (watched_returns ht)
  refine ⟨?_, ?_⟩
  · change (s.guest.attempts ++ [_]).map _ = (List.range' n (s.guest.attempts ++ [_]).length).map _
    rw [List.map_append, hsame, List.length_append, List.length_singleton, List.range'_concat,
      List.map_append, Nat.one_mul, ← hcount]
    rfl
  · change taken t.guest = n + (s.guest.attempts ++ [_]).length
    rw [htaken, List.length_append, List.length_singleton, ← Nat.add_assoc, ← hcount]
    rfl

/-- A visit tells of the outcomes that its call came to. -/
theorem Follows.visit (h : call.Follows outcomes taken) {patience j : Nat} {key : String}
    {plan : Plan} {s t : Session ι γ} {v : Visit}
    (hv : (call.visit j key (Execution.run patience plan)).Returns s v t) :
    v.attempts.map (·.outcome) = (List.range' (taken s.guest) v.attempts.length).map outcomes ∧
      taken t.guest = taken s.guest + v.attempts.length := by
  obtain ⟨result, u, hu, rfl, rfl⟩ := of_visit hv
  exact Execution.run_preserves (Action.indifferent_guest _) (fun _ _ _ h => h)
    (h.tells (taken s.guest)) patience _ _ _ hu ⟨rfl, rfl⟩

end Call

/-! ## One visit after the other -/

/-- A key as it is after `k` failed attempts, when another one is allowed: without an entry, and
with room for one, before the first; then with a context that counts them. -/
structure Ready (limit : AttemptLimit) (i : Nat) (key : String) (k : Nat) (s : Session ι γ) :
    Prop where
  sound : (s.ledgers.get i).Sound
  first : (s.ledgers.get i).get? key = none → k = 0 ∧ (s.ledgers.get i).live.isFull = false
  later : ∀ x, (s.ledgers.get i).get? key = some x → x.attempts = k ∧ limit.allows x = true

/-- The context tells of `k` failed attempts and of the last failure. -/
def Context.Counts (x : Context) (k : Nat) (last : Failure) : Prop :=
  x.attempts = k ∧ x.last = some last

theorem Context.Counts.allows {x : Context} {k : Nat} {f : Failure} (h : x.Counts k f)
    (p : AttemptLimit) : p.allows x = p.again k f := by
  obtain ⟨rfl, hl⟩ := h
  exact p.allows_failed hl

section Steps

variable {terms : Terms} {limit : AttemptLimit} {call : Call ι γ} {i k : Nat} {key : String}
  {outcomes : Nat → Except Failure Json} {taken : γ → Nat} {s : Session ι γ}

/-- The call with the key. -/
def Call.keyed (patience i : Nat) (key : String) (terms : Terms) (call : Call ι γ) :
    Action ι γ Visit :=
  call.visit i key (Execution.run patience ⟨terms, some ⟨key, false⟩⟩)

/-- A call with a key is served, and finds room where there is some. -/
theorem keyed_served (patience : Nat) (he : terms.executor = .attempting i)
    (hend : call.proceed.Ends) (hspare : call.proceed.Spares i key)
    (hs : (s.ledgers.get i).Sound) :
    ∃ v t, (call.keyed patience i key terms).Returns s v t ∧ Served terms call.arguments v ∧
      (t.ledgers.get i).Sound ∧ v.found = (s.ledgers.get i).get? key ∧
      v.left = (t.ledgers.get i).get? key ∧
      ((s.ledgers.get i).live.isFull = false → ∀ capacity,
        v.result ≠ .error (.contextsFull capacity)) := by
  obtain ⟨result, t, ht, hserved, hts⟩ := Execution.stateful_served (s := s.noting) terms
    ⟨key, false⟩ hs rfl rfl hend hspare
  have hrun := ht
  rw [← Execution.run_keyed he patience] at hrun
  exact ⟨_, _, Call.visit_returns hrun, hserved, hts, rfl, rfl,
    fun hroom =>
      Execution.stateful_housed (s := s.noting) hs (Call.watched_ends hend) hroom ht⟩

/-- What a visit by a key that is ready comes to: one attempt, which ends the sequence, or is
counted and followed by a pause if another attempt is allowed. -/
theorem keyed_ready (patience : Nat) (hp : terms.policy = .attempts limit)
    (he : terms.executor = .attempting i) (h : call.Follows outcomes taken)
    (hspare : call.proceed.Spares i key) (hs : Ready limit i key k s) :
    ∃ v t ended, (call.keyed patience i key terms).Returns s v t ∧ (t.ledgers.get i).Sound ∧
      taken t.guest = taken s.guest + 1 ∧ v.attempts = [⟨[], outcomes (taken s.guest), ended⟩] ∧
      v.result = (outcomes (taken s.guest)).mapError .failed ∧
      ((∃ value, outcomes (taken s.guest) = .ok value ∧ v.pauses = [] ∧
          (t.ledgers.get i).get? key = none) ∨
        ∃ f x words, outcomes (taken s.guest) = .error f ∧
          (t.ledgers.get i).get? key = some x ∧ x.Counts (k + 1) f ∧
          v.pauses = if limit.again (k + 1) f then terms.pausesAfter (k + 1) words else []) := by
  obtain ⟨v, t, hv, hserved, hts, hfound, hleft, hroom⟩ :=
    keyed_served patience he h.ends hspare hs.sound
  obtain ⟨hsame, htaken⟩ := h.visit hv
  obtain ⟨x, hx, hxk, hallows⟩ : ∃ x, v.found.getD (Context.fresh v.begun) = x ∧ x.attempts = k ∧
      limit.allows x = true := by
    cases hg : (s.ledgers.get i).get? key with
    | none =>
      rw [hfound, hg]
      exact ⟨_, rfl, (hs.first hg).1.symm, limit.allows_unfailed rfl rfl⟩
    | some x =>
      rw [hfound, hg]
      exact ⟨x, rfl, hs.later x hg⟩
  have hcheck : v.admission terms.policy = ⟨true, x, []⟩ := by
    unfold Visit.admission
    rw [hx, hp, ← hallows]; rfl
  have hown : terms.policy.isShared = false := by rw [hp]; rfl
  cases hserved with
  | full capacity hnone hatt hpau hres =>
    exact absurd hres (hroom (hs.first (hfound ▸ hnone)).2 capacity)
  | refused last hno => rw [hcheck] at hno; cases hno
  | succeeded value ended hyes hatt hpau hres hgone =>
    rw [hown, if_neg (by decide), hleft] at hgone
    rw [hatt] at hsame htaken
    obtain ⟨hvalue, -⟩ := List.cons.inj hsame
    dsimp only at hvalue
    rw [← hvalue]
    exact ⟨v, t, ended, hv, hts, htaken, hatt, hres, .inl ⟨value, rfl, hpau, hgone⟩⟩
  | failed f ended words after hyes hatt hres hafter hkept hpau =>
    rw [hcheck, hp] at hafter
    have hcounts : after.context.Counts (k + 1) f := by
      rw [hafter, ← hxk]; exact ⟨rfl, rfl⟩
    rw [hatt] at hsame htaken
    obtain ⟨hf, -⟩ := List.cons.inj hsame
    dsimp only at hf
    rw [← hf]
    refine ⟨v, t, ended, hv, hts, htaken, hatt, hres,
      .inr ⟨f, after.context, words, rfl, hleft ▸ hkept, hcounts, ?_⟩⟩
    rw [← hcounts.allows limit, ← hcounts.1, hpau, hafter]
    rfl

/-- What a visit by a key comes to that has no attempt left. -/
theorem keyed_spent (patience : Nat) (hp : terms.policy = .attempts limit)
    (he : terms.executor = .attempting i) (hend : call.proceed.Ends)
    (hspare : call.proceed.Spares i key) (hs : (s.ledgers.get i).Sound) {x : Context} {f : Failure}
    (hx : (s.ledgers.get i).get? key = some x) (hcounts : x.Counts k f)
    (hno : limit.again k f = false) :
    ∃ v t, (call.keyed patience i key terms).Returns s v t ∧ v.attempts = [] ∧ v.pauses = [] ∧
      (t.ledgers.get i).get? key = none ∧
      v.result = terms.recovery call.arguments f (.exhausted k f) := by
  obtain ⟨v, t, hv, hserved, -, hfound, hleft, -⟩ := keyed_served patience he hend hspare hs
  have hcheck : v.admission terms.policy = ⟨false, x, []⟩ := by
    unfold Visit.admission
    rw [hfound, hx, hp, ← hno, ← hcounts.allows limit]; rfl
  cases hserved with
  | full capacity hnone => rw [hfound, hx] at hnone; cases hnone
  | refused last _ hlast hatt hpau hres hgone =>
    rw [hcheck] at hlast hres
    obtain rfl : last = f := Option.some.inj (hlast.symm.trans hcounts.2)
    rw [hp] at hgone
    refine ⟨v, t, hv, hatt, hpau, hleft ▸ hgone, ?_⟩
    rw [hres, ← hcounts.1]
    unfold Terms.refusal
    rw [hp]
  | succeeded value ended hyes => rw [hcheck] at hyes; cases hyes
  | failed f ended words after hyes => rw [hcheck] at hyes; cases hyes

/-- The visits make, one by one, the attempts that a call without a key made at once. -/
structure Repeats (attempts : List Attempt) (vs : List Visit) : Prop where
  count : vs.length = attempts.length
  single : ∀ v ∈ vs, v.attempts.length = 1
  outcomes : vs.flatMap (·.attempts.map (·.outcome)) = attempts.map (·.outcome)

theorem Repeats.cons {a : Attempt} {later : List Attempt} {v : Visit} {vs : List Visit}
    {ended : Nat} (hv : v.attempts = [⟨[], a.outcome, ended⟩]) (h : Repeats later vs) :
    Repeats (a :: later) (v :: vs) where
  count := by rw [List.length_cons, List.length_cons, h.count]
  single w hw := by
    rcases List.mem_cons.mp hw with rfl | hw
    · rw [hv]; rfl
    · exact h.single w hw
  outcomes := by rw [List.flatMap_cons, List.map_cons, h.outcomes, hv]; rfl

theorem repeats_nil : Repeats [] [] := ⟨rfl, nofun, rfl⟩

/-- How the call without a key and its repetition end: with the same value and without a trace of
it, or with the same last failure, after which the key has no attempt left. -/
inductive Ended (terms : Terms) (limit : AttemptLimit) (arguments : List Json) (n : Nat)
    (last : Except Failure Json) (result : Result) (again : Option Result)
    (kept : Option Context) : Prop where
  | well (value : Json) : last = .ok value → result = .ok value → again = some (.ok value) →
      kept = none → Ended terms limit arguments n last result again kept
  | badly (f : Failure) (x : Context) : last = .error f →
      result = terms.recovery arguments f (.failed f) → kept = some x → x.Counts n f →
      limit.again n f = false → Ended terms limit arguments n last result again kept

/-- **Made with a key, a call makes its attempts one by one.** -/
theorem times_attempted (patience : Nat) (hp : terms.policy = .attempts limit)
    (he : terms.executor = .attempting i) (h : call.Follows outcomes taken)
    (hspare : call.proceed.Spares i key) {ps : List Pause} {attempts : List Attempt}
    {result : Result} (ha : Attempted terms limit call.arguments k ps attempts result)
    (hs : Ready limit i key k s)
    (hsame : attempts.map (·.outcome) =
      (List.range' (taken s.guest) attempts.length).map outcomes) :
    ∃ vs t m, attempts.length = m + 1 ∧
      ((call.keyed patience i key terms).times (m + 1)).Returns s vs t ∧ Repeats attempts vs ∧
      ps.map (·.attempt) ++ (vs.flatMap Visit.allPauses).map (·.attempt) =
        (attempts.flatMap (·.pauses)).map (·.attempt) ∧
      (t.ledgers.get i).Sound ∧ taken t.guest = taken s.guest + (m + 1) ∧
      Ended terms limit call.arguments (k + (m + 1)) (outcomes (taken s.guest + m)) result
        (vs.getLast?.map (·.result)) ((t.ledgers.get i).get? key) := by
  induction ha generalizing s with
  | @succeeded k ended ps value =>
    obtain ⟨v, t, ended', hv, hts, htaken, hatt, hres, hcase⟩ :=
      keyed_ready patience hp he h hspare hs
    obtain ⟨hvalue, -⟩ := List.cons.inj hsame
    dsimp only at hvalue
    rw [← hvalue] at hatt hres hcase
    obtain ⟨_, -, hpau, hgone⟩ | ⟨f, x, words, hf, -⟩ := hcase
    · refine ⟨[v], t, 0, rfl, hv.bind rfl, repeats_nil.cons hatt, ?_, hts, htaken,
        .well value hvalue.symm rfl (congrArg some hres) hgone⟩
      simp [Visit.allPauses, hatt, hpau]
    · cases hf
  | @gaveUp k ended ps f hno =>
    obtain ⟨v, t, ended', hv, hts, htaken, hatt, hres, hcase⟩ :=
      keyed_ready patience hp he h hspare hs
    obtain ⟨hf, -⟩ := List.cons.inj hsame
    dsimp only at hf
    rw [← hf] at hatt hcase
    obtain ⟨value, hvalue, -⟩ | ⟨_, x, words, hg, hkept, hcounts, hpau⟩ := hcase
    · cases hvalue
    · cases hg
      rw [hno] at hpau
      refine ⟨[v], t, 0, rfl, hv.bind rfl, repeats_nil.cons hatt, ?_, hts, htaken,
        .badly _ x hf.symm rfl hkept hcounts hno⟩
      simp [Visit.allPauses, hatt, hpau]
  | @retried k ended ps f later result words hyes hlater ih =>
    obtain ⟨v, u, ended', hv, hus, hutaken, hatt, hres, hcase⟩ :=
      keyed_ready patience hp he h hspare hs
    rw [List.map_cons, List.length_cons, List.range'_succ, List.map_cons] at hsame
    obtain ⟨hf, hrest⟩ := List.cons.inj hsame
    dsimp only at hf
    rw [← hf] at hatt hcase
    obtain ⟨value, hvalue, -⟩ | ⟨_, x, words', hg, hkept, hcounts, hpau⟩ := hcase
    · cases hvalue
    · cases hg
      have hready : Ready limit i key (k + 1) u := by
        refine ⟨hus, fun hnone => ?_, fun y hy => ?_⟩
        · rw [hkept] at hnone; cases hnone
        · obtain rfl : x = y := Option.some.inj (hkept.symm.trans hy)
          exact ⟨hcounts.1, (hcounts.allows limit).trans hyes⟩
      obtain ⟨vs, t, m, hm, hvs, hrep, hpauses, hts, htaken, hended⟩ :=
        ih hready (by rw [hutaken]; exact hrest)
      rw [hyes, if_pos rfl] at hpau
      refine ⟨v :: vs, t, m + 1, by rw [List.length_cons, hm], hv.bind (hvs.bind rfl),
        hrep.cons hatt, ?_, hts, by rw [htaken, hutaken]; omega, ?_⟩
      · rw [List.flatMap_cons, List.flatMap_cons, List.map_append, List.map_append, ← hpauses,
          terms.attempt_pausesAfter (k + 1) words words']
        simp [Visit.allPauses, hatt, hpau]
      · have hlast : (v :: vs).getLast? = vs.getLast? := by
          have hne : vs ≠ [] := by rintro rfl; have := hrep.count; rw [hm] at this; cases this
          rw [List.getLast?_cons, List.getLast?_eq_some_getLast hne]; rfl
        rw [hlast, show k + (m + 1 + 1) = k + 1 + (m + 1) by omega,
          show taken s.guest + (m + 1) = taken u.guest + m by omega]
        exact hended

/-- **With a key or without, a call stops at the same outcome.** A call without a key makes `m + 1`
attempts in one visit. Made with a key that has no entry yet, the call makes one of them in each of
`m + 1` visits, with pauses after the same attempts. After a success the key has no entry and the
last visit has the value; after a failure a further visit makes no attempt, drops the entry and is
recovered as the call without a key was. -/
theorem stops_alike (patience : Nat) (hp : terms.policy = .attempts limit)
    (he : terms.executor = .attempting i) (h : call.Follows outcomes taken)
    (hspare : call.proceed.Spares i key) {s s' : Session ι γ}
    (hstart : taken s'.guest = taken s.guest) (hs : (s'.ledgers.get i).Sound)
    (hnew : (s'.ledgers.get i).get? key = none)
    (hroom : (s'.ledgers.get i).live.isFull = false) :
    ∃ v t m, (call.visit i key (Execution.run patience ⟨terms, none⟩)).Returns s v t ∧
      v.attempts.map (·.outcome) = (List.range' (taken s.guest) (m + 1)).map outcomes ∧
      taken t.guest = taken s.guest + (m + 1) ∧
      ∃ vs u, ((call.keyed patience i key terms).times (m + 1)).Returns s' vs u ∧
        Repeats v.attempts vs ∧ taken u.guest = taken s'.guest + (m + 1) ∧
        (vs.flatMap Visit.allPauses).map (·.attempt) = v.allPauses.map (·.attempt) ∧
        (∀ value, outcomes (taken s.guest + m) = .ok value → v.result = .ok value ∧
          vs.getLast?.map (·.result) = some (.ok value) ∧ (u.ledgers.get i).get? key = none) ∧
        ∀ f, outcomes (taken s.guest + m) = .error f →
          ∃ w u', (call.keyed patience i key terms).Returns u w u' ∧ w.attempts = [] ∧
            w.pauses = [] ∧ (u'.ledgers.get i).get? key = none ∧
            (∀ r, terms.recoverer = some r → w.result = v.result ∧
              v.result = (r.recover call.arguments f).1.mapError .failed) ∧
            (terms.recoverer = none → v.result = .error (.failed f) ∧
              w.result = .error (.exhausted (m + 1) f)) := by
  obtain ⟨v, t, hv, hpau, hatt⟩ := Call.visit_attempted hp he h.ends patience i key s
  obtain ⟨hsame, htaken⟩ := h.visit hv
  have hready : Ready limit i key 0 s' :=
    ⟨hs, fun _ => ⟨rfl, hroom⟩, fun x hx => by rw [hnew] at hx; cases hx⟩
  obtain ⟨vs, u, m, hm, hvs, hrep, hpauses, hus, hutaken, hended⟩ :=
    times_attempted patience hp he h hspare hatt hready (by rw [hstart]; exact hsame)
  rw [hm] at hsame htaken
  rw [hstart, Nat.zero_add] at hended
  refine ⟨v, t, m, hv, hsame, htaken, vs, u, hvs, hrep, hutaken, ?_, fun value hvalue => ?_,
    fun f hf => ?_⟩
  · rw [Visit.allPauses, hpau, List.append_nil, ← hpauses]; rfl
  · cases hended with
    | well value' hvalue' hres hagain hgone =>
      cases hvalue.symm.trans hvalue'
      exact ⟨hres, hagain, hgone⟩
    | badly f x hf => cases hvalue.symm.trans hf
  · cases hended with
    | well value hvalue => cases hf.symm.trans hvalue
    | badly f' x hf' hres hkept hcounts hno =>
      cases hf.symm.trans hf'
      obtain ⟨w, u', hw, hwatt, hwpau, hgone, hwres⟩ :=
        keyed_spent patience hp he h.ends hspare hus hkept hcounts hno
      refine ⟨w, u', hw, hwatt, hwpau, hgone, fun r hr => ?_, fun hr => ?_⟩
      · unfold Terms.recovery at hres hwres
        rw [hr] at hres hwres
        exact ⟨hwres.trans hres.symm, hres⟩
      · unfold Terms.recovery at hres hwres
        rw [hr] at hres hwres
        exact ⟨hres, hwres⟩

end Steps

/-! ## A call that fails once -/

def hiccup (n : Nat) : Except Failure Json :=
  if n = 0 then .error ⟨⟨.root "Down" "Down", "down"⟩, []⟩ else .ok .null

/-- The call counts how often it was made. -/
def hiccuping : Call Unit Nat where
  method := ⟨"Stock", "count", []⟩
  target := ⟨"Stock", none⟩
  arguments := []
  proceed := fun s => some (hiccup s.guest, { s with guest := s.guest + 1 })

def threeTimes : Terms where
  policy := .attempts ⟨3, .retryAll, Nat.zero_lt_succ _⟩
  backoff := .fixed (Duration.ofMillis 100)
  sleeper := .recording
  recoverer := none
  executor := .attempting 0

theorem stops_alike_hiccup :
    ∃ v t m, (hiccuping.visit 0 "k" (Execution.run 0 ⟨threeTimes, none⟩)).Returns
        (Session.begin 0) v t ∧ t.guest = m + 1 ∧
      ∃ vs u, ((hiccuping.keyed 0 0 "k" threeTimes).times (m + 1)).Returns (Session.begin 0) vs u ∧
        Repeats v.attempts vs ∧ u.guest = m + 1 ∧
        (vs.flatMap Visit.allPauses).map (·.attempt) = v.allPauses.map (·.attempt) ∧
        ∀ value, hiccup m = .ok value → v.result = .ok value ∧
          vs.getLast?.map (·.result) = some (.ok value) ∧ (u.ledgers.get 0).get? "k" = none := by
  have hp : threeTimes.policy = .attempts ⟨3, .retryAll, by decide⟩ := rfl
  have hfollows : hiccuping.Follows hiccup id := fun s => ⟨_, rfl, rfl⟩
  have hspare : hiccuping.proceed.Spares 0 "k" := by
    intro s _ t ht hs
    cases ht; exact ⟨hs, rfl⟩
  obtain ⟨v, t, m, hv, -, ht, vs, u, hvs, hrep, hu, hpauses, hok, -⟩ :=
    stops_alike (s := Session.begin 0) 0 hp rfl hfollows hspare rfl (Ledger.sound_empty _) rfl rfl
  refine ⟨v, t, m, hv, ?_, vs, u, hvs, hrep, ?_, hpauses, fun value hvalue => ?_⟩
  · rw [← Nat.zero_add (m + 1)]; exact ht
  · rw [← Nat.zero_add (m + 1)]; exact hu
  · exact hok value ((congrArg hiccup (Nat.zero_add m)).trans hvalue)

end CallGuard
