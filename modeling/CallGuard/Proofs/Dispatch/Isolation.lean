import Mathlib.Data.List.Forall2
import CallGuard.Proofs.Dispatch.Origins
import CallGuard.Proofs.Keys
/-! # Methods that do not share attempts

Under an attempt limit a call with a key depends on two things, how many attempts have failed and
with what, and it changes nothing but that. So what the calls to one method come to does not depend
on the calls to another one whose keys are others, and the default keys of methods of different
signatures always are. `isolated` says this of runs: without the calls to the other method, the same
comes of the calls to this one. A key generator that gives two methods one key joins them. -/

namespace CallGuard

variable {ι γ α : Type}

/-! ## A call seen from what its key counts -/

/-- What an attempt limit looks at: the number of failed attempts and the latest failure. -/
abbrev Standing := Nat × Option Failure

/-- A key without a context stands like one without a failure. -/
def standing (kept : Option Context) : Standing :=
  kept.elim (0, none) fun x => (x.attempts, x.last)

namespace Standing

/-- The standing after an attempt. -/
def after (st : Standing) : Except Failure Json → Standing
  | .ok _ => (0, none)
  | .error f => (st.1 + 1, some f)

end Standing

def AttemptLimit.permits (p : AttemptLimit) (st : Standing) : Bool :=
  st.2.all p.retries && decide (st.1 < p.limit)

/-- The pauses after an attempt: some if it failed and another one is permitted. -/
def Terms.pausesBy (terms : Terms) (limit : AttemptLimit) (before : Standing) (words : Words) :
    Except Failure Json → List Pause
  | .ok _ => []
  | .error f =>
    if limit.permits (before.1 + 1, some f) then terms.pausesAfter (before.1 + 1) words else []

/-- The pauses are the same but for the random words that were left for their lengths. -/
def Terms.SamePauses (terms : Terms) (ps ps' : List Pause) : Prop :=
  ps = ps' ∨ ∃ n words words', ps = terms.pausesAfter n words ∧ ps' = terms.pausesAfter n words'

/-- Two visits show the same attempts, the same pauses and the same result, at whatever times. -/
structure Visit.Resembles (terms : Terms) (v v' : Visit) : Prop where
  attempts : v.attempts.map (fun a => (a.pauses, a.outcome)) =
    v'.attempts.map fun a => (a.pauses, a.outcome)
  pauses : terms.SamePauses v.pauses v'.pauses
  result : v.result = v'.result

/-- What a call with a key comes to under an attempt limit, if its attempt comes to `outcome`. -/
inductive Counted (terms : Terms) (limit : AttemptLimit) (arguments : List Json)
    (outcome : Except Failure Json) (before : Standing) (v : Visit) : Prop where
  | refused (last : Failure) : limit.permits before = false → before.2 = some last →
      v.attempts = [] → v.pauses = [] →
      v.result = terms.recovery arguments last (.exhausted before.1 last) →
      standing v.left = (0, none) → Counted terms limit arguments outcome before v
  | attempted (ended : Nat) (words : Words) : limit.permits before = true →
      v.attempts = [⟨[], outcome, ended⟩] →
      v.pauses = terms.pausesBy limit before words outcome →
      v.result = outcome.mapError .failed → standing v.left = before.after outcome →
      Counted terms limit arguments outcome before v

variable {terms : Terms} {limit : AttemptLimit} {arguments : List Json}
  {outcome : Except Failure Json} {v v' : Visit}

/-- A served call depends on the standing of the context that it finds, and on its outcome. -/
theorem Served.counted (h : Served terms arguments v) (hp : terms.policy = .attempts limit)
    (hout : ∀ a ∈ v.attempts, a.outcome = outcome) (hroom : v.turnedAway = false) :
    Counted terms limit arguments outcome (standing v.found) v := by
  have hfound : standing v.found = ((v.admission terms.policy).context.attempts,
      (v.admission terms.policy).context.last) := by
    unfold Visit.admission
    rw [hp]
    cases v.found <;> rfl
  have hallowed : (v.admission terms.policy).allowed = limit.permits (standing v.found) := by
    rw [hfound]
    unfold Visit.admission
    rw [hp]
    rfl
  have hshared : terms.policy.isShared = false := by rw [hp]; rfl
  cases h with
  | full capacity _ _ _ hres => unfold Visit.turnedAway at hroom; rw [hres] at hroom; cases hroom
  | refused last hno hlast hatt hpau hres hleft =>
    rw [hshared, if_neg nofun] at hleft
    refine .refused last (hallowed ▸ hno) (hfound ▸ hlast) hatt hpau ?_ (by rw [hleft]; rfl)
    rw [hres, hfound]
    unfold Terms.refusal
    rw [hp]
  | succeeded value ended hyes hatt hpau hres hleft =>
    rw [hshared, if_neg nofun] at hleft
    obtain rfl : .ok value = outcome := hout ⟨[], .ok value, ended⟩ (hatt ▸ .head _)
    exact .attempted ended default (hallowed ▸ hyes) hatt hpau hres (by rw [hleft]; rfl)
  | failed f ended words after hyes hatt hres hafter hleft hpau =>
    obtain rfl : .error f = outcome := hout ⟨[], .error f, ended⟩ (hatt ▸ .head _)
    rw [hp] at hafter
    have hcount : standing (some after.context) = (standing v.found).after (.error f) := by
      rw [hafter, hfound, hp]; rfl
    have hagain : after.allowed = limit.permits ((standing v.found).1 + 1, some f) := by
      rw [hafter, hfound, hp]; rfl
    refine .attempted ended words (hallowed ▸ hyes) hatt ?_ hres (by rw [hleft]; exact hcount)
    rw [hpau, hagain, show after.context.attempts = (standing v.found).1 + 1 from
      congrArg Prod.fst hcount]
    rfl

/-- What is counted alike is seen alike, and is counted alike afterwards. -/
theorem Counted.alike {before : Standing} (h : Counted terms limit arguments outcome before v)
    (h' : Counted terms limit arguments outcome before v') :
    v.Resembles terms v' ∧ standing v.left = standing v'.left := by
  cases h with
  | refused last hno hlast hatt hpau hres hleft =>
    cases h' with
    | refused last' _ hlast' hatt' hpau' hres' hleft' =>
      obtain rfl : last = last' := Option.some.inj (hlast.symm.trans hlast')
      exact ⟨⟨by rw [hatt, hatt'], .inl (hpau.trans hpau'.symm), hres.trans hres'.symm⟩,
        hleft.trans hleft'.symm⟩
    | attempted _ _ hyes => rw [hno] at hyes; cases hyes
  | attempted ended words hyes hatt hpau hres hleft =>
    cases h' with
    | refused _ hno => rw [hno] at hyes; cases hyes
    | attempted ended' words' _ hatt' hpau' hres' hleft' =>
      refine ⟨⟨by rw [hatt, hatt']; rfl, ?_, hres.trans hres'.symm⟩, hleft.trans hleft'.symm⟩
      rw [hpau, hpau']
      cases outcome with
      | ok value => exact .inl rfl
      | error f =>
        unfold Terms.pausesBy
        dsimp only
        split
        · exact .inr ⟨_, words, words', rfl, rfl⟩
        · exact .inl rfl

/-! ## Dispatches that leave attempts to their guards -/

/-- The action ends, and touches neither a key of the ledger `i` nor a kept strategy. -/
structure Action.Contained (i : Nat) (act : Action ι γ α) : Prop where
  ends : act.Ends
  spares : ∀ k, act.Spares i k
  keeps : ∀ s a t, act.Returns s a t → t.resolved = s.resolved

theorem Action.Contained.preserves {i : Nat} {act : Action ι γ α} (h : act.Contained i)
    (P : Known ι → Prop) : act.Preserves fun s => P s.resolved := by
  intro s a t ht hs
  rw [h.keeps s a t ht]
  exact hs

namespace Dispatch

/-- What happens around the dispatch does not touch what the dispatcher has, and its call comes to
one outcome whenever it is made. -/
structure Contained (i : Nat) (r : Dispatch ι γ) : Prop where
  before : r.before.Contained i
  call : r.call.proceed.Contained i
  settled : ∃ outcome, ∀ s a t, r.call.proceed.Returns s a t → a = outcome

/-- What a dispatch through a guard takes from a session, shows and leaves. -/
structure Leaves (d : Dispatcher) (i : Nat) (g : Guard) (r : Dispatch ι γ) (s : Session ι γ)
    (v : Visit) (t : Session ι γ) : Prop where
  sound : (t.ledgers.get i).Sound
  learns : d.Learns s.resolved t.resolved r.call.method r.call.target
  answers : g.Answers r.call.method r.call.arguments v
  served : ∀ key, g.keyOf r.call.method r.call.arguments = some key →
    v.found = (s.ledgers.get i).get? key.key ∧ v.left = (t.ledgers.get i).get? key.key ∧
      Served g.terms r.call.arguments (v.facing key.refresh)
  spares : ∀ k, (∀ own, g.keyOf r.call.method r.call.arguments = some own → k ≠ own.key) →
    (t.ledgers.get i).get? k = (s.ledgers.get i).get? k
  outcomes : ∀ outcome, (∀ s a t, r.call.proceed.Returns s a t → a = outcome) →
    ∀ a ∈ v.attempts, a.outcome = outcome

variable {d : Dispatcher} {i : Nat} {g : Guard} {r : Dispatch ι γ} {s s' t t' : Session ι γ}
  {v v' : Visit} {intercept : ι → Call ι (Notes γ) → Action ι (Notes γ) Result}

theorem observe_leaves (patience : Nat) (hexec : d.executor = .attempting i) (h : r.Contained i)
    (hs : (s.ledgers.get i).Sound) (hown : d.Own s.resolved)
    (hg : d.Through s.resolved r.call.method r.call.target g) :
    ∃ v t, (r.observe patience intercept d i).Returns s v t ∧ Leaves d i g r s v t := by
  obtain ⟨⟨⟩, u, hu⟩ := h.before.ends s
  have hsame := h.before.keeps s () u hu
  have hspared (k : String) := h.before.spares k s () u hu hs
  have hus := (hspared "").1
  obtain ⟨origin, horigin⟩ := hown.through hg
  have hmakes := Dispatcher.guardOf?_makes horigin
  rw [← hsame] at hg
  obtain ⟨v, t, ht, hpasses⟩ := Dispatcher.visit_passes patience intercept hg
    (hmakes.executor.trans hexec) hmakes.limited hus h.call.ends
    (fun k hk => Dispatcher.keyFor_eq horigin hk)
  have hts : (t.ledgers.get i).Sound :=
    hpasses.sound fun s a t ht hs => (h.call.spares "" s a t ht hs).1
  refine ⟨v, t, hu.bind ht, hts, ?_, hpasses.answers, fun key hkey => ⟨?_, ?_, ?_⟩,
    fun k hk => ?_, fun outcome => hpasses.outcomes (· = outcome)⟩
  · obtain ⟨known, hlearns, hleft⟩ := hpasses.keeps
    rw [← hsame]
    let learnt (known : Known ι) := d.Learns u.resolved known r.call.method r.call.target
    exact hleft learnt (h.call.preserves learnt) hlearns
  · rw [hpasses.found, ← Dispatcher.keyFor_eq horigin hkey, hus.get?_eq, (hspared _).2, hs.get?_eq]
  · rw [hpasses.left, Dispatcher.keyFor_eq horigin hkey]
  · exact hpasses.served key hkey (h.call.spares key.key)
  · rw [hts.get?_eq, (hpasses.spares k hk (h.call.spares k)).2, (hspared k).2, hs.get?_eq]

/-! ## Two runs side by side -/

/-- A session in which all these dispatches go through guards that count attempts. -/
structure Counting (d : Dispatcher) (i : Nat) (rounds : List (Dispatch ι γ)) (s : Session ι γ) :
    Prop where
  sound : (s.ledgers.get i).Sound
  own : d.Own s.resolved
  stateful : ∀ r ∈ rounds, ∃ terms rule,
    d.Through s.resolved r.call.method r.call.target (.stateful terms rule)

theorem Counting.leaves {rounds : List (Dispatch ι γ)} (h : Counting d i rounds s)
    {terms : Terms} {rule : KeyRule} (hg : g = .stateful terms rule)
    (hthrough : d.Through s.resolved r.call.method r.call.target g)
    (hleaves : Leaves d i g r s v t) : Counting d i rounds t := by
  refine ⟨hleaves.sound, h.own.learns hleaves.learns, fun r' hr' => ?_⟩
  by_cases hm : r'.call.method = r.call.method
  · obtain ⟨n, hn⟩ := (hleaves.learns.through g).mpr hthrough
    exact ⟨terms, rule, .inl ⟨n, by rw [hm, hn, hg]⟩⟩
  · obtain ⟨terms', rule', hr⟩ := h.stateful r' hr'
    refine ⟨terms', rule', ?_⟩
    unfold Dispatcher.Through
    rw [hleaves.learns.elsewhere _ hm]
    exact hr

/-- Two sessions are alike for all methods but one, and for the keys of interest. -/
structure Agree (d : Dispatcher) (i : Nat) (other : Method) (keys : String → Prop)
    (s s' : Session ι γ) : Prop where
  kept : ∀ m, m ≠ other →
    (d.kept? s.resolved m).map (·.strategy) = (d.kept? s'.resolved m).map (·.strategy)
  stands : ∀ k, keys k →
    standing ((s.ledgers.get i).get? k) = standing ((s'.ledgers.get i).get? k)

variable {other : Method} {keys : String → Prop}

/-- A dispatch to the other method does not show in what is of interest. -/
theorem Agree.skip (h : Agree d i other keys s s') (hr : r.call.method = other)
    (hleaves : Leaves d i g r s v t)
    (hkeys : ∀ own, g.keyOf r.call.method r.call.arguments = some own → ¬ keys own.key) :
    Agree d i other keys t s' := by
  refine ⟨fun m hm => ?_, fun k hk => ?_⟩
  · rw [hleaves.learns.elsewhere m (hr ▸ hm)]
    exact h.kept m hm
  · rw [hleaves.spares k fun own hown => by rintro rfl; exact hkeys own hown hk]
    exact h.stands k hk

/-- Where the same strategy is kept, or none, a dispatch goes through the same guard. -/
theorem Agree.through (h : Agree d i other keys s s') (hr : r.call.method ≠ other)
    (hg : d.Through s.resolved r.call.method r.call.target g) :
    d.Through s'.resolved r.call.method r.call.target g := by
  have hkept := h.kept _ hr
  rcases hg with ⟨n, hn⟩ | ⟨hnone, hfresh⟩
  · rw [hn] at hkept
    obtain ⟨⟨n', strategy⟩, hn', rfl⟩ := Option.map_eq_some_iff.mp hkept.symm
    exact .inl ⟨n', hn'⟩
  · rw [hnone] at hkept
    exact .inr ⟨Option.map_eq_none_iff.mp hkept.symm, hfresh⟩

/-- Without a key the call is made once. -/
theorem Leaves.unkeyed {terms : Terms} {rule : KeyRule} (h : Leaves d i g r s v t)
    (hg : g = .stateful terms rule)
    (hkey : rule.key? r.call.method r.call.arguments = none) {outcome : Except Failure Json}
    (hout : ∀ s a t, r.call.proceed.Returns s a t → a = outcome) :
    ∃ ended, v.attempts = [⟨[], outcome, ended⟩] ∧ v.pauses = [] ∧
      v.result = outcome.mapError .failed := by
  subst hg
  cases h.answers with
  | stateless _ _ hg => cases hg
  | unkeyed terms rule own ended _ _ hatt hpau hres =>
    obtain rfl : own = outcome := h.outcomes outcome hout ⟨[], own, ended⟩ (hatt ▸ .head _)
    exact ⟨ended, hatt, hpau, hres⟩
  | keyed key hk => exact absurd (hkey.symm.trans hk) nofun

/-- With a key it is counted. -/
theorem Leaves.counted {terms : Terms} {limit : AttemptLimit} {rule : KeyRule} {key : RetryKey}
    (h : Leaves d i g r s v t) (hg : g = .stateful terms rule)
    (hp : terms.policy = .attempts limit) (hnew : rule.isNew = none)
    (hkey : rule.key? r.call.method r.call.arguments = some key) {outcome : Except Failure Json}
    (hout : ∀ s a t, r.call.proceed.Returns s a t → a = outcome) (hroom : v.turnedAway = false) :
    Counted terms limit r.call.arguments outcome (standing ((s.ledgers.get i).get? key.key)) v ∧
      v.left = (t.ledgers.get i).get? key.key := by
  subst hg
  have hrefresh : key.refresh = false := by
    unfold KeyRule.key? at hkey
    rw [hnew] at hkey
    cases hk : rule.keyOf with
    | none => rw [hk] at hkey; cases hkey; rfl
    | some keyOf =>
      rw [hk] at hkey
      obtain ⟨k, -, rfl⟩ := Option.map_eq_some_iff.mp hkey
      rfl
  obtain ⟨hfound, hleft, hserved⟩ := h.served key hkey
  rw [hrefresh] at hserved
  rw [← hfound]
  exact ⟨Served.counted (v := v) hserved hp (h.outcomes outcome hout) hroom, hleft⟩

/-- Both dispatches leave the same strategies. -/
theorem Agree.kept_after (h : Agree d i other keys s s') (hr : r.call.method ≠ other)
    (hthrough : d.Through s.resolved r.call.method r.call.target g)
    (hl : Leaves d i g r s v t) (hl' : Leaves d i g r s' v' t') {m : Method} (hm : m ≠ other) :
    (d.kept? t.resolved m).map (·.strategy) = (d.kept? t'.resolved m).map (·.strategy) := by
  by_cases hown : m = r.call.method
  · obtain ⟨n, hn⟩ := (hl.learns.through g).mpr hthrough
    obtain ⟨n', hn'⟩ := (hl'.learns.through g).mpr (h.through hr hthrough)
    rw [hown, hn, hn']
    rfl
  · rw [hl.learns.elsewhere m hown, hl'.learns.elsewhere m hown]
    exact h.kept m hm

/-- Both leave all keys but their own as they are. -/
theorem Agree.stands_elsewhere (h : Agree d i other keys s s') (hl : Leaves d i g r s v t)
    (hl' : Leaves d i g r s' v' t') {k : String} (hk : keys k)
    (hown : ∀ own, g.keyOf r.call.method r.call.arguments = some own → k ≠ own.key) :
    standing ((t.ledgers.get i).get? k) = standing ((t'.ledgers.get i).get? k) := by
  rw [hl.spares k hown, hl'.spares k hown]
  exact h.stands k hk

/-- **A dispatch comes to the same in two sessions that are alike**, and leaves them alike. -/
theorem Agree.both {terms : Terms} {limit : AttemptLimit} {rule : KeyRule}
    (h : Agree d i other keys s s') (hr : r.call.method ≠ other) (hg : g = .stateful terms rule)
    (hp : terms.policy = .attempts limit) (hnew : rule.isNew = none)
    (hthrough : d.Through s.resolved r.call.method r.call.target g)
    (hl : Leaves d i g r s v t) (hl' : Leaves d i g r s' v' t')
    (hsettled : ∃ outcome, ∀ s a t, r.call.proceed.Returns s a t → a = outcome)
    (hroom : v.turnedAway = false) (hroom' : v'.turnedAway = false) :
    Agree d i other keys t t' ∧
      ((∀ own, rule.key? r.call.method r.call.arguments = some own → keys own.key) →
        v.Resembles terms v') := by
  obtain ⟨outcome, hout⟩ := hsettled
  have hkept : ∀ m, m ≠ other → _ := fun m => h.kept_after hr hthrough hl hl'
  have hkeyOf : g.keyOf r.call.method r.call.arguments =
      rule.key? r.call.method r.call.arguments := by rw [hg]; rfl
  cases hkey : rule.key? r.call.method r.call.arguments with
  | none =>
    refine ⟨⟨hkept, fun k hk => h.stands_elsewhere hl hl' hk fun own hown => ?_⟩, fun _ => ?_⟩
    · rw [hkeyOf, hkey] at hown
      cases hown
    · obtain ⟨ended, hatt, hpau, hres⟩ := hl.unkeyed hg hkey hout
      obtain ⟨ended', hatt', hpau', hres'⟩ := hl'.unkeyed hg hkey hout
      exact ⟨by rw [hatt, hatt']; rfl, .inl (hpau.trans hpau'.symm), hres.trans hres'.symm⟩
  | some key =>
    obtain ⟨hcounted, hleft⟩ := hl.counted hg hp hnew hkey hout hroom
    obtain ⟨hcounted', hleft'⟩ := hl'.counted hg hp hnew hkey hout hroom'
    have halike (hk : keys key.key) := hcounted.alike (h.stands key.key hk ▸ hcounted')
    refine ⟨⟨hkept, fun k hk => ?_⟩, fun hk => (halike (hk key rfl)).1⟩
    by_cases hown : k = key.key
    · subst hown
      rw [← hleft, ← hleft']
      exact (halike hk).2
    · refine h.stands_elsewhere hl hl' hk fun own hsame => ?_
      rw [hkeyOf, hkey] at hsame
      cases hsame
      exact hown

/-- The two visits of a dispatch resemble each other on the terms of the guard of its method. -/
def Alike (d : Dispatcher) (e e' : Dispatch ι γ × Visit) : Prop :=
  e.1 = e'.1 ∧ ∃ terms rule,
    d.guardOf? e.1.call.method e.1.call.target = some (.stateful terms rule) ∧
      e.2.Resembles terms e'.2

/-- A guard that counts attempts is one that the dispatcher makes for the method. -/
theorem Counting.guard {rounds : List (Dispatch ι γ)} (h : Counting d i rounds s)
    (hr : r ∈ rounds) :
    ∃ g terms limit own, d.Through s.resolved r.call.method r.call.target g ∧
      g = .stateful terms d.keys ∧ terms.policy = .attempts limit ∧
      d.guardOf? r.call.method r.call.target = some (.stateful own d.keys) ∧
      ∀ v v' : Visit, v.Resembles terms v' → v.Resembles own v' := by
  obtain ⟨terms, rule, hg⟩ := h.stateful r hr
  obtain ⟨origin, horigin⟩ := h.own.through hg
  have hmakes := Dispatcher.guardOf?_makes horigin
  obtain rfl : rule = d.keys := hmakes.keys terms rule rfl
  obtain ⟨limit, hp⟩ := hmakes.limited
  exact ⟨_, terms, limit, _, hg, rfl, hp, Dispatcher.guardOf?_elsewhere horigin r.call.target,
    fun v v' h => ⟨h.attempts, h.pauses, h.result⟩⟩

/-- **A run with the dispatches to another method, and one without them.** The runs need not begin
in the same session, only in sessions that are alike. -/
theorem run_alike (keys : String → Prop) (patience : Nat) (hexec : d.executor = .attempting i)
    (hnew : d.keys.isNew = none) {m : Method} (hne : m ≠ other) {rounds : List (Dispatch ι γ)}
    (h : ∀ r ∈ rounds, r.Contained i)
    (hmine : ∀ r ∈ rounds, r.call.method = m → ∀ k,
      d.keys.key? r.call.method r.call.arguments = some k → keys k.key)
    (hother : ∀ r ∈ rounds, r.call.method = other → ∀ k,
      d.keys.key? r.call.method r.call.arguments = some k → ¬ keys k.key)
    (hs : Counting d i rounds s)
    (hs' : Counting d i (rounds.filter (·.call.method ≠ other)) s') :
    ∃ seen t seen' t',
      (Action.inOrder (observe patience intercept d i) rounds).Returns s seen t ∧
      (Action.inOrder (observe patience intercept d i)
        (rounds.filter (·.call.method ≠ other))).Returns s' seen' t' ∧
      (Agree d i other keys s s' → (∀ e ∈ seen, e.2.turnedAway = false) →
        (∀ e ∈ seen', e.2.turnedAway = false) →
        List.Forall₂ (Alike d) (seen.filter (·.1.call.method = m))
          (seen'.filter (·.1.call.method = m))) := by
  induction rounds generalizing s s' with
  | nil => exact ⟨[], s, [], s', rfl, rfl, fun _ _ _ => .nil⟩
  | cons r rounds ih =>
    have hrest : ∀ r' ∈ rounds, r'.Contained i := fun r' hr' => h r' (.tail _ hr')
    have hmine' := fun r' hr' => hmine r' (.tail r hr')
    have hother' := fun r' hr' => hother r' (.tail r hr')
    obtain ⟨g, terms, limit, own, hthrough, hg, hp, hown, hresembles⟩ := hs.guard (.head _)
    obtain ⟨v, t, ht, hl⟩ :=
      observe_leaves patience hexec (h r (.head _)) hs.sound hs.own hthrough
    have hst : Counting d i rounds t :=
      Counting.leaves ⟨hs.sound, hs.own, fun r' hr' => hs.stateful r' (.tail _ hr')⟩ hg hthrough hl
    by_cases hr : r.call.method = other
    · rw [List.filter_cons_of_neg (by simpa using hr)] at hs' ⊢
      obtain ⟨seen, u, seen', u', hu, hu', halike⟩ := ih hrest hmine' hother' hst hs'
      refine ⟨(r, v) :: seen, u, seen', u', ht.bind (hu.bind rfl), hu',
        fun hagree hroom hroom' => ?_⟩
      rw [List.filter_cons_of_neg (by simpa [hr] using hne.symm)]
      refine halike (hagree.skip hr hl fun own hown => hother r (.head _) hr own ?_)
        (fun e he => hroom e (.tail _ he)) hroom'
      rw [hg] at hown; exact hown
    · rw [List.filter_cons_of_pos (by simpa using hr)] at hs' ⊢
      obtain ⟨g', terms', limit', own', hthrough', hg', -⟩ := hs'.guard (.head _)
      obtain ⟨v', t', ht', hl'⟩ :=
        observe_leaves patience hexec (h r (.head _)) hs'.sound hs'.own hthrough'
      have hst' : Counting d i (rounds.filter (·.call.method ≠ other)) t' :=
        Counting.leaves ⟨hs'.sound, hs'.own, fun r' hr' => hs'.stateful r' (.tail _ hr')⟩ hg'
          hthrough' hl'
      obtain ⟨seen, u, seen', u', hu, hu', halike⟩ := ih hrest hmine' hother' hst hst'
      refine ⟨(r, v) :: seen, u, (r, v') :: seen', u', ht.bind (hu.bind rfl),
        ht'.bind (hu'.bind rfl), fun hagree hroom hroom' => ?_⟩
      -- in sessions that are alike the guards are the same
      obtain rfl : g = g' := (hagree.through hr hthrough).unique hthrough'
      obtain ⟨hleft, hseen⟩ := hagree.both hr hg hp hnew hthrough hl hl' (h r (.head _)).settled
        (hroom _ (.head _)) (hroom' _ (.head _))
      have hlater := halike hleft (fun e he => hroom e (.tail _ he))
        fun e he => hroom' e (.tail _ he)
      by_cases hm : r.call.method = m
      · rw [List.filter_cons_of_pos (by simpa using hm),
          List.filter_cons_of_pos (by simpa using hm)]
        exact .cons ⟨rfl, own, d.keys, hown, hresembles v v' (hseen (hmine r (.head _) hm))⟩ hlater
      · rw [List.filter_cons_of_neg (by simpa using hm),
          List.filter_cons_of_neg (by simpa using hm)]
        exact hlater

/-! ## Methods whose keys are apart -/

theorem counting_of_fresh {rounds : List (Dispatch ι γ)} (hs : (s.ledgers.get i).Sound)
    (hown : d.Own s.resolved)
    (h : ∀ r ∈ rounds, d.kept? s.resolved r.call.method = none ∧ ∃ terms rule,
      d.guardOf? r.call.method r.call.target = some (.stateful terms rule)) :
    Counting d i rounds s := by
  refine ⟨hs, hown, fun r hr => ?_⟩
  obtain ⟨hnone, terms, rule, hg⟩ := h r hr
  exact ⟨terms, rule, .inr ⟨hnone, hg⟩⟩

/-- A dispatch to the one method never has the key of a dispatch to the other: the keys that are
generated for them differ, or else the signatures of the methods or the arguments do. -/
def KeysApart (d : Dispatcher) (m other : Method) (rounds : List (Dispatch ι γ)) : Prop :=
  ∀ r ∈ rounds, r.call.method = m → ∀ r' ∈ rounds, r'.call.method = other →
    match d.keys.keyOf with
    | some keyOf => ∀ k, keyOf r.call.arguments = some k → keyOf r'.call.arguments ≠ some k
    | none => m.signature ≠ other.signature ∨
        (Json.arr r.call.arguments).compact ≠ (Json.arr r'.call.arguments).compact

theorem KeysApart.ne {m : Method} {rounds : List (Dispatch ι γ)} (h : KeysApart d m other rounds)
    {r r' : Dispatch ι γ} (hr : r ∈ rounds) (hm : r.call.method = m) (hr' : r' ∈ rounds)
    (hm' : r'.call.method = other) {key key' : RetryKey}
    (hkey : d.keys.key? r.call.method r.call.arguments = some key)
    (hkey' : d.keys.key? r'.call.method r'.call.arguments = some key') : key.key ≠ key'.key := by
  specialize h r hr hm r' hr' hm'
  unfold KeyRule.key? at hkey hkey'
  cases hk : d.keys.keyOf with
  | none =>
    rw [hk] at h hkey hkey'
    cases hkey
    cases hkey'
    intro hsame
    rw [hm, hm'] at hsame
    obtain ⟨hsignature, htext⟩ := RetryKey.default_eq_iff.mp hsame
    exact h.elim (· hsignature) (· htext)
  | some keyOf =>
    rw [hk] at h hkey hkey'
    obtain ⟨k, hgen, rfl⟩ := Option.map_eq_some_iff.mp hkey
    obtain ⟨k', hgen', rfl⟩ := Option.map_eq_some_iff.mp hkey'
    rintro rfl
    exact h k hgen hgen'

/-- Without a key generator, methods of different signatures have different keys throughout. -/
theorem keysApart_of_signature (hdefault : d.keys.keyOf = none) {m : Method}
    (h : m.signature ≠ other.signature) (rounds : List (Dispatch ι γ)) :
    KeysApart d m other rounds := by
  intro r _ _ r' _ _
  rw [hdefault]
  exact .inl h

/-- **Methods whose keys are apart do not share attempts.** Dispatches through guards that count
attempts are made once with those to the method `other` and once without them. If no call is turned
away in either run, the dispatches to `m` show the same in both: the same attempts, the same pauses
and the same results. -/
theorem isolated (patience : Nat) (hexec : d.executor = .attempting i) (hnew : d.keys.isNew = none)
    {m : Method} (hne : m ≠ other) {rounds : List (Dispatch ι γ)}
    (h : ∀ r ∈ rounds, r.Contained i) (hapart : KeysApart d m other rounds)
    (hs : Counting d i rounds s) :
    ∃ seen t seen' t',
      (Action.inOrder (observe patience intercept d i) rounds).Returns s seen t ∧
      (Action.inOrder (observe patience intercept d i)
        (rounds.filter (·.call.method ≠ other))).Returns s seen' t' ∧
      ((∀ e ∈ seen, e.2.turnedAway = false) → (∀ e ∈ seen', e.2.turnedAway = false) →
        List.Forall₂ (Alike d) (seen.filter (·.1.call.method = m))
          (seen'.filter (·.1.call.method = m))) := by
  let keys (k : String) : Prop := ∃ r ∈ rounds, r.call.method = m ∧ ∃ key,
    d.keys.key? r.call.method r.call.arguments = some key ∧ key.key = k
  have hwithout : Counting d i (rounds.filter (·.call.method ≠ other)) s :=
    ⟨hs.sound, hs.own, fun r hr => hs.stateful r (List.mem_filter.mp hr).1⟩
  obtain ⟨seen, t, seen', t', ht, ht', halike⟩ := run_alike keys patience hexec hnew hne h
    (fun r hr hm k hk => ⟨r, hr, hm, k, hk, rfl⟩)
    (fun r' hr' hm' k' hk' ⟨r, hr, hm, k, hk, hsame⟩ => hapart.ne hr hm hr' hm' hk hk' hsame)
    hs hwithout
  exact ⟨seen, t, seen', t', ht, ht', halike ⟨fun _ _ => rfl, fun _ _ => rfl⟩⟩

/-! ## Two methods at one clerk -/

/-- Both methods have one attempt for a key. -/
def clerkOf (one other : Method) (keyOf : Option (List Json → Option String)) : Dispatcher where
  settings := (SettingsTable.ofDeclarations
    [.onMethod one { RetrySettings.statefulDefault with maxAttempts := 1 },
    .onMethod other { RetrySettings.statefulDefault with maxAttempts := 1 }]).source
  handlers := fun _ => []
  sleeper := .instant
  executor := .attempting 0
  keys := ⟨keyOf, none⟩
  ledger := 0
  registry := 0
  resolved := 0
  lookups := 0

def errandTo (m : Method) (outcome : Except Failure Json) : Dispatch Unit Unit where
  before := pure ()
  call := ⟨m, ⟨m.declaringType, none⟩, [.str "sku-1"], pure outcome⟩

def ofStock (name : String) : Method := ⟨"Stock", name, []⟩

def clerk (keyOf : Option (List Json → Option String)) : Dispatcher :=
  clerkOf (ofStock "reserve") (ofStock "count") keyOf

def errand (name : String) (outcome : Except Failure Json) : Dispatch Unit Unit :=
  errandTo (ofStock name) outcome

/-- A reservation that fails, and then a count of the same article. -/
def errands : List (Dispatch Unit Unit) :=
  [errand "reserve" (.error ⟨⟨.root "Down" "Down", "down"⟩, []⟩), errand "count" (.ok .null)]

def counts : List (Dispatch Unit Unit) := errands.filter (·.call.method ≠ ofStock "reserve")

def visitsTo (d : Dispatcher) (rounds : List (Dispatch Unit Unit)) :
    Action Unit Unit (List (Dispatch Unit Unit × Visit)) :=
  Action.inOrder (observe 0 (fun _ call => call.once) d 0) rounds

def clerkVisits (keyOf : Option (List Json → Option String)) (rounds : List (Dispatch Unit Unit)) :
    Action Unit Unit (List (Dispatch Unit Unit × Visit)) :=
  visitsTo (clerk keyOf) rounds

theorem errand_contained (name : String) (outcome : Except Failure Json) :
    (errand name outcome).Contained 0 where
  before := ⟨fun s => ⟨(), s, rfl⟩, fun _ s _ t h hs => by cases h; exact ⟨hs, rfl⟩,
    fun s _ t h => by cases h; rfl⟩
  call := ⟨fun s => ⟨outcome, s, rfl⟩, fun _ s _ t h hs => by cases h; exact ⟨hs, rfl⟩,
    fun s _ t h => by cases h; rfl⟩
  settled := ⟨outcome, fun s a t h => by cases h; rfl⟩

theorem isolated_errands :
    ∃ seen t seen' t',
      (clerkVisits none errands).Returns (Session.begin ()) seen t ∧
      (clerkVisits none counts).Returns (Session.begin ()) seen' t' ∧
      List.Forall₂ (Alike (clerk none))
        (seen.filter (·.1.call.method = ofStock "count"))
        (seen'.filter (·.1.call.method = ofStock "count")) := by
  have hrounds : ∀ r ∈ errands, r.Contained 0 ∧
      (clerk none).kept? (Session.begin () : Session Unit Unit).resolved r.call.method = none ∧
      ∃ terms rule, (clerk none).guardOf? r.call.method r.call.target =
        some (.stateful terms rule) := by
    intro r hr
    simp only [errands, List.mem_cons, List.not_mem_nil, or_false] at hr
    rcases hr with rfl | rfl <;> exact ⟨errand_contained .., rfl, _, _, rfl⟩
  have hcounting : Counting (clerk none) 0 errands (Session.begin ()) :=
    counting_of_fresh (Ledger.sound_empty _) (clerk none).own_empty fun r hr => (hrounds r hr).2
  have hapart : KeysApart (clerk none) (ofStock "count") (ofStock "reserve") errands :=
    keysApart_of_signature rfl (by decide) errands
  have hne : ofStock "count" ≠ ofStock "reserve" := by decide
  have hroom : ((clerkVisits none errands).run (Session.begin ())).all
      (fun p => p.1.all fun e => !e.2.turnedAway) = true := by decide +kernel
  have hroom' : ((clerkVisits none counts).run (Session.begin ())).all
      (fun p => p.1.all fun e => !e.2.turnedAway) = true := by decide +kernel
  obtain ⟨seen, t, seen', t', ht, ht', halike⟩ := isolated (d := clerk none) 0 rfl rfl hne
    (fun r hr => (hrounds r hr).1) hapart hcounting
  exact ⟨seen, t, seen', t', ht, ht',
    halike (all_housed_of_run ht hroom) (all_housed_of_run ht' hroom')⟩

/-- The article as the key. -/
def byArticle : List Json → Option String := fun arguments => arguments.head?.bind Json.str?

/-- With the article as the key the failed reservation uses the attempt of the count up. -/
theorem joined_by_article :
    (((clerkVisits (some byArticle) errands).run (Session.begin ())).map fun p =>
        p.1.map fun e => (e.1.call.method.name, e.2.turnedAway, e.2.attempts.length)) =
      some [("reserve", false, 1), ("count", false, 0)] ∧
    (((clerkVisits (some byArticle) counts).run (Session.begin ())).map fun p =>
        p.1.map fun e => (e.1.call.method.name, e.2.turnedAway, e.2.attempts.length)) =
      some [("count", false, 1)] := by
  decide +kernel

/-- Counts the stock on the shelf. -/
def shelfCount : Method := ⟨"Stock", "shelf::count", []⟩

/-- Counts the shelves: another type's method, with the same signature as `shelfCount`. -/
def countOfShelf : Method := ⟨"Stock::shelf", "count", []⟩

/-- Without a key generator two methods of one signature have one key for equal arguments, so the
failed call to the one uses the attempt of the other up. -/
theorem joined_by_signature :
    shelfCount ≠ countOfShelf ∧
    (((visitsTo (clerkOf shelfCount countOfShelf none)
        [errandTo shelfCount (.error ⟨⟨.root "Down" "Down", "down"⟩, []⟩),
          errandTo countOfShelf (.ok .null)]).run (Session.begin ())).map fun p =>
        p.1.map fun e => (e.1.call.method.name, e.2.turnedAway, e.2.attempts.length)) =
      some [("shelf::count", false, 1), ("count", false, 0)] ∧
    (((visitsTo (clerkOf shelfCount countOfShelf none)
        [errandTo countOfShelf (.ok .null)]).run (Session.begin ())).map fun p =>
        p.1.map fun e => (e.1.call.method.name, e.2.turnedAway, e.2.attempts.length)) =
      some [("count", false, 1)] := by
  decide +kernel

end Dispatch

end CallGuard
