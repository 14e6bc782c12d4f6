import CallGuard.Proofs.Served
/-! # Runs of calls, one after the other

A run is a list of rounds. What is seen of the rounds that use one key is a chain, in which each
round finds the context that the one before it left; rounds under other keys, and whatever happens
in between, do not show in it. `play_chained` is that statement for calls with keys in any order,
and a machine that simulates the links of such a chain follows the whole run. -/

namespace CallGuard

variable {ι γ ρ σ τ ε : Type}

/-! ## Traces -/

/-- A machine goes from state to state along a list of labels. -/
inductive Traces (step : σ → ε → σ → Prop) : σ → List ε → σ → Prop
  | nil {a : σ} : Traces step a [] a
  | cons {a b c : σ} {e : ε} {es : List ε} :
      step a e b → Traces step b es c → Traces step a (e :: es) c

namespace Traces

variable {step : σ → ε → σ → Prop}

/-- A machine that simulates each step follows the whole trace. -/
theorem simulate (shows : σ → τ → Prop) (step' : τ → ε → τ → Prop) {a b : σ} {es : List ε}
    (hstep : ∀ e ∈ es, ∀ {a b x}, shows a x → step a e b → ∃ y, step' x e y ∧ shows b y)
    (h : Traces step a es b) {x : τ} (hx : shows a x) :
    ∃ y, Traces step' x es y ∧ shows b y := by
  induction h generalizing x with
  | nil => exact ⟨x, .nil, hx⟩
  | cons he _ ih =>
    obtain ⟨y, hy, hby⟩ := hstep _ (.head _) hx he
    obtain ⟨z, hz, hcz⟩ := ih (fun e hmem => hstep e (.tail _ hmem)) hby
    exact ⟨z, .cons hy hz, hcz⟩

theorem append {a c : σ} {es fs : List ε} (h : Traces step a (es ++ fs) c) :
    ∃ b, Traces step a es b ∧ Traces step b fs c := by
  induction es generalizing a with
  | nil => exact ⟨a, .nil, h⟩
  | cons e es ih =>
    cases h with
    | cons he hes =>
      obtain ⟨b, hb, hfs⟩ := ih hes
      exact ⟨b, .cons he hb, hfs⟩

end Traces

/-! ## Rounds in order -/

namespace Action

/-- Goes through the rounds of a run and says what was seen of each. -/
def inOrder (one : ρ → Action ι γ Visit) : List ρ → Action ι γ (List (ρ × Visit))
  | [] => return []
  | r :: rs => do
    let v ← one r
    let seen ← inOrder one rs
    return (r, v) :: seen

theorem inOrder_rounds {one : ρ → Action ι γ Visit} {rs : List ρ} {s t : Session ι γ}
    {seen : List (ρ × Visit)} (h : (inOrder one rs).Returns s seen t) : seen.map Prod.fst = rs := by
  induction rs generalizing s seen with
  | nil => cases h; rfl
  | cons r rs ih =>
    obtain ⟨v, u, -, h⟩ := h.of_bind
    obtain ⟨later, w, hlater, h⟩ := h.of_bind
    cases h
    rw [List.map_cons, ih hlater]

end Action

/-- A visit leads from the context that it finds to the one that it leaves, and is as it should. -/
def Links (good : ρ → Visit → Prop) (found : Option Context) (e : ρ × Visit)
    (left : Option Context) : Prop :=
  e.2.found = found ∧ e.2.left = left ∧ good e.1 e.2

/-- **The rounds under one key make a chain.** It is enough that a round under the key is a link,
and that any other leaves the key alone. -/
theorem Action.inOrder_chained {one : ρ → Action ι γ Visit} {good : ρ → Visit → Prop}
    (mine : ρ → Bool) (inv : Session ι γ → Prop) (kept : Session ι γ → Option Context) {rs : List ρ}
    (hstep : ∀ r ∈ rs, ∀ s, inv s → ∃ v t, (one r).Returns s v t ∧ inv t ∧
      if mine r then Links good (kept s) (r, v) (kept t) else kept t = kept s)
    {s : Session ι γ} (hs : inv s) :
    ∃ seen t, (inOrder one rs).Returns s seen t ∧ seen.map Prod.fst = rs ∧ inv t ∧
      Traces (Links good) (kept s) (seen.filter fun e => mine e.1) (kept t) := by
  induction rs generalizing s with
  | nil => exact ⟨[], s, rfl, rfl, hs, .nil⟩
  | cons r rs ih =>
    obtain ⟨v, t, hv, ht, hlink⟩ := hstep r (.head _) s hs
    obtain ⟨seen, u, hseen, hmap, hu, hchain⟩ := ih (fun r' hr' => hstep r' (.tail _ hr')) ht
    refine ⟨(r, v) :: seen, u, hv.bind (hseen.bind rfl), by rw [List.map_cons, hmap], hu, ?_⟩
    by_cases hr : mine r = true
    · rw [if_pos hr] at hlink
      rw [List.filter_cons_of_pos (by exact hr)]
      exact .cons hlink hchain
    · rw [if_neg hr] at hlink
      rw [List.filter_cons_of_neg (by exact hr), ← hlink]
      exact hchain

/-! ## Rounds with keys -/

/-- A call with a key, and what happens before it. -/
structure Round (ι γ : Type) where
  before : Action ι γ Unit
  policy : Policy
  backoff : Backoff
  sleeper : Sleeper
  recoverer : Option Recoverer
  key : String
  call : Call ι γ

namespace Round

/-- The terms of the call; its contexts are in the ledger `i`. -/
def terms (r : Round ι γ) (i : Nat) : Terms :=
  ⟨r.policy, r.backoff, r.sleeper, r.recoverer, .attempting i⟩

def visit (patience i : Nat) (r : Round ι γ) : Action ι γ Visit := do
  r.before
  r.call.visit i r.key (Execution.run patience ⟨r.terms i, some ⟨r.key, false⟩⟩)

/-- What the round does apart from its guarded call ends, and leaves a key alone. -/
structure Sequential (r : Round ι γ) (i : Nat) (key : String) : Prop where
  before_ends : r.before.Ends
  before_spares : r.before.Spares i key
  call_ends : r.call.proceed.Ends
  call_spares : r.call.proceed.Spares i key

/-- A round that lets time pass and whose call comes to one outcome. -/
def simple (policy : Policy) (key : String) (step : Duration)
    (outcome : Except Failure Json) : Round Unit Unit where
  before := Action.moveClock (·.advance step)
  policy := policy
  backoff := .none
  sleeper := .instant
  recoverer := none
  key := key
  call := ⟨⟨"Stock", "count", []⟩, ⟨"Stock", none⟩, [], pure outcome⟩

theorem simple_sequential (policy : Policy) (key : String) (step : Duration)
    (outcome : Except Failure Json) (i : Nat) (k : String) :
    (simple policy key step outcome).Sequential i k where
  before_ends s := ⟨(), _, rfl⟩
  before_spares s _ t h hs := by cases h; exact ⟨hs, rfl⟩
  call_ends s := ⟨outcome, s, rfl⟩
  call_spares s _ t h hs := by cases h; exact ⟨hs, rfl⟩

variable {r : Round ι γ} {i : Nat} {key : String} {s : Session ι γ}

theorem visit_under (patience : Nat) (h : r.Sequential i r.key) (hs : (s.ledgers.get i).Sound) :
    ∃ v t, (r.visit patience i).Returns s v t ∧ (t.ledgers.get i).Sound ∧
      Links (fun r v => Served (r.terms i) r.call.arguments v)
        ((s.ledgers.get i).get? r.key) (r, v) ((t.ledgers.get i).get? r.key) := by
  obtain ⟨⟨⟩, u, hu⟩ := h.before_ends s
  obtain ⟨hus, huk⟩ := h.before_spares s () u hu hs
  obtain ⟨result, t, ht, hserved, hts⟩ := Execution.stateful_served (s := u.noting)
    (r.terms i) ⟨r.key, false⟩ hus rfl rfl h.call_ends h.call_spares
  refine ⟨_, _, hu.bind (Call.visit_returns ht), hts, ?_, rfl, hserved⟩
  change (u.ledgers.get i).get? r.key = _
  rw [hus.get?_eq, huk, hs.get?_eq]

theorem visit_other (patience : Nat) (h : r.Sequential i key) (hk : r.key ≠ key)
    (hs : (s.ledgers.get i).Sound) :
    ∃ v t, (r.visit patience i).Returns s v t ∧ (t.ledgers.get i).Sound ∧
      (t.ledgers.get i).get? key = (s.ledgers.get i).get? key := by
  obtain ⟨⟨⟩, u, hu⟩ := h.before_ends s
  obtain ⟨hus, huk⟩ := h.before_spares s () u hu hs
  have hwatch := Call.watched_ends h.call_ends
  have hother := Execution.stateful_spares (r.terms i) ⟨r.key, false⟩ hk.symm hwatch
    (Call.watched_spares h.call_ends h.call_spares)
  obtain ⟨hends, hspares⟩ : (r.call.visit i r.key _).Ends ∧ _ := Call.visit_spares i r.key
    (Execution.stateful_ends (r.terms i) hwatch) hother
  obtain ⟨v, t, ht⟩ := hends u
  obtain ⟨hts, htk⟩ := hspares u v t ht hus
  exact ⟨v, t, hu.bind ht, hts, by rw [hts.get?_eq, htk, huk, hs.get?_eq]⟩

end Round

def play (patience i : Nat) : List (Round ι γ) → Action ι γ (List (Round ι γ × Visit)) :=
  Action.inOrder (Round.visit patience i)

def under (key : String) (seen : List (Round ι γ × Visit)) : List (Round ι γ × Visit) :=
  seen.filter fun e => e.1.key = key

theorem of_under {key : String} {rounds : List (Round ι γ)} {seen : List (Round ι γ × Visit)}
    (hmap : seen.map Prod.fst = rounds) {e : Round ι γ × Visit} (he : e ∈ under key seen) :
    e.1 ∈ rounds ∧ e.1.key = key := by
  obtain ⟨hmem, hkey⟩ := List.mem_filter.mp he
  exact ⟨hmap ▸ List.mem_map_of_mem hmem, by simpa using hkey⟩

/-- That a run turns no call away can be computed. -/
theorem all_housed_of_run {act : Action ι γ (List (ρ × Visit))} {s t : Session ι γ}
    {seen : List (ρ × Visit)} (hr : act.Returns s seen t)
    (h : (act.run s).all (fun p => p.1.all fun e => !e.2.turnedAway) = true) :
    ∀ e ∈ seen, e.2.turnedAway = false := by
  intro e he
  rw [show act.run s = some (seen, t) from hr] at h
  have hall := List.all_eq_true.mp h e he
  simpa using hall

theorem housed_of_run {key : String} {act : Action ι γ (List (Round ι γ × Visit))}
    {s t : Session ι γ} {seen : List (Round ι γ × Visit)} (hr : act.Returns s seen t)
    (h : (act.run s).all (fun p => p.1.all fun e => !e.2.turnedAway) = true) :
    ∀ e ∈ under key seen, e.2.turnedAway = false :=
  fun e he => all_housed_of_run hr h e (List.mem_filter.mp he).1

/-- **A run ends, and its rounds under a key make a chain.** Of the rounds under other keys nothing
is asked but that what happens in them besides their guarded calls leaves the key alone. -/
theorem play_chained (patience : Nat) {i : Nat} {key : String} {rounds : List (Round ι γ)}
    (h : ∀ r ∈ rounds, r.Sequential i key) {s : Session ι γ} (hs : (s.ledgers.get i).Sound) :
    ∃ seen t, (play patience i rounds).Returns s seen t ∧ seen.map Prod.fst = rounds ∧
      (t.ledgers.get i).Sound ∧
      Traces (Links fun r v => Served (r.terms i) r.call.arguments v)
        ((s.ledgers.get i).get? key) (under key seen) ((t.ledgers.get i).get? key) := by
  refine Action.inOrder_chained (fun r : Round ι γ => decide (r.key = key))
    (fun s => (s.ledgers.get i).Sound) (fun s => (s.ledgers.get i).get? key)
    (fun r hr s hs => ?_) hs
  by_cases hk : r.key = key
  · subst hk
    obtain ⟨v, t, hv, ht, hlink⟩ := Round.visit_under patience (h r hr) hs
    exact ⟨v, t, hv, ht, by simpa using hlink⟩
  · obtain ⟨v, t, hv, ht, hkept⟩ := Round.visit_other patience (h r hr) hk hs
    exact ⟨v, t, hv, ht, by simpa [hk] using hkept⟩

end CallGuard
