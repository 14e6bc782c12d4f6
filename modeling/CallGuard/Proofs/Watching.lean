import CallGuard.Execution
import CallGuard.Proofs.Ledger.Steps
/-! # Calls under observation

What a guard does with a call shows in how often it makes the call, when, with what pauses, and in
what it answers. A watched call is the call itself with a note of every making of it; guards cannot
tell the two apart, because what calls keep for themselves is none of their business. A visit is one
guarded call as it was seen. -/

namespace CallGuard

variable {ι γ δ α : Type}

/-- The strategies kept by dispatchers. -/
abbrev Known (ι : Type) := Shelf (Dict Method (Resolved ι))

namespace Action

/-- Begun at `s`, the action ends at `t` with the result `a`. -/
def Returns (act : Action ι γ α) (s : Session ι γ) (a : α) (t : Session ι γ) : Prop :=
  act.run s = some (a, t)

theorem Returns.unique {act : Action ι γ α} {s t u : Session ι γ} {a b : α}
    (h : act.Returns s a t) (h' : act.Returns s b u) : a = b ∧ t = u := by
  have := h.symm.trans h'
  cases this; exact ⟨rfl, rfl⟩

theorem Returns.bind {β : Type} {act : Action ι γ α} {next : α → Action ι γ β}
    {s t u : Session ι γ} {a : α} {b : β} (h : act.Returns s a t) (hn : (next a).Returns t b u) :
    (act >>= next).Returns s b u := by
  unfold Returns at h hn ⊢
  rw [StateT.run_bind, h]
  exact hn

def Ends (act : Action ι γ α) : Prop := ∀ s, ∃ a t, act.Returns s a t

/-- The action leaves a ledger sound, and a key of it as it is. -/
def Spares (i : Nat) (key : String) (act : Action ι γ α) : Prop :=
  ∀ s a t, act.Returns s a t → (s.ledgers.get i).Sound →
    (t.ledgers.get i).Sound ∧ (t.ledgers.get i).current? key = (s.ledgers.get i).current? key

/-- The action preserves a property of the kept strategies. -/
def Keeps (P : Known ι → Prop) (act : Action ι γ α) : Prop :=
  ∀ s a t, act.Returns s a t → P s.resolved → P t.resolved

end Action

structure Attempt where
  /-- The pauses that the guard made before it. -/
  pauses : List Pause
  outcome : Except Failure Json
  /-- The time when it was over. -/
  ended : Nat

/-- What is seen of a guarded call with a key. -/
structure Visit where
  /-- The time when it began: the clock's first reading. -/
  begun : Nat
  /-- The time when it was asked for an attempt: the clock's second reading. -/
  asked : Nat
  attempts : List Attempt
  /-- The pauses that the guard made after the last attempt, or without one. -/
  pauses : List Pause
  result : Result
  found : Option Context
  left : Option Context

/-- Whether the call ended for want of room for its key. -/
def Visit.turnedAway (v : Visit) : Bool :=
  match v.result with
  | .error (.contextsFull _) => true
  | _ => false

/-- What a watched call keeps: what it kept anyway, and the notes. -/
structure Notes (γ : Type) where
  own : γ
  attempts : List Attempt
  /-- The number of pauses made when the guard last took over. -/
  mark : Nat

/-- The session as calls see it that keep something else. -/
def Session.withGuest (s : Session ι γ) (guest : δ) : Session ι δ :=
  { s with guest := guest }

namespace Call

/-- The call with a note of every making of it. -/
def watched (call : Call ι γ) : Call ι (Notes γ) where
  method := call.method
  target := call.target
  arguments := call.arguments
  proceed := fun s => do
    let (outcome, t) ← call.proceed (s.withGuest s.guest.own)
    let attempt := ⟨s.pauses.toList.drop s.guest.mark, outcome, t.clock.now⟩
    return (outcome, t.withGuest ⟨t.guest, s.guest.attempts ++ [attempt], t.pauses.size⟩)

end Call

/-- What is seen of a guarded call that took one session to another. -/
def Visit.of (i : Nat) (key : String) (s t : Session ι (Notes γ)) (result : Result) : Visit where
  begun := s.clock.now
  asked := s.clock.read.now
  attempts := t.guest.attempts
  pauses := t.pauses.toList.drop t.guest.mark
  result := result
  found := (s.ledgers.get i).get? key
  left := (t.ledgers.get i).get? key

/-- A visit looks at the clock and at the ledger where it begins. -/
theorem Visit.of_congr (i : Nat) (key : String) {s u : Session ι (Notes γ)}
    (hc : u.clock = s.clock) (hl : u.ledgers = s.ledgers) (t : Session ι (Notes γ))
    (result : Result) : Visit.of i key s t result = Visit.of i key u t result := by
  unfold Visit.of
  rw [hc, hl]

namespace Session

def noting (s : Session ι γ) : Session ι (Notes γ) := s.withGuest ⟨s.guest, [], s.pauses.size⟩

end Session

namespace Call

/-- Makes a call under a guard, and reports on it and on a key of a ledger. -/
def visit (i : Nat) (key : String) (guard : Call ι (Notes γ) → Action ι (Notes γ) Result)
    (call : Call ι γ) : Action ι γ Visit := fun s => do
  let (result, t) ← guard call.watched s.noting
  return (Visit.of i key s.noting t result, t.withGuest t.guest.own)

variable {i : Nat} {key k : String} {call : Call ι γ}

/-- What a visit reports, read off the run of the guard. -/
theorem visit_returns {guard : Call ι (Notes γ) → Action ι (Notes γ) Result} {s : Session ι γ}
    {result : Result} {t : Session ι (Notes γ)}
    (h : (guard call.watched).Returns s.noting result t) :
    (call.visit i key guard).Returns s (Visit.of i key s.noting t result)
      (t.withGuest t.guest.own) := by
  change (guard call.watched) _ = _ at h
  change (do let (r, u) ← (guard call.watched) _; _) = _
  rw [h]
  rfl

theorem of_visit {guard : Call ι (Notes γ) → Action ι (Notes γ) Result} {s t : Session ι γ}
    {v : Visit} (h : (call.visit i key guard).Returns s v t) :
    ∃ result u, (guard call.watched).Returns s.noting result u ∧
      v = Visit.of i key s.noting u result ∧ t = u.withGuest u.guest.own := by
  change (guard call.watched s.noting).bind _ = some _ at h
  obtain ⟨⟨result, u⟩, hu, hv⟩ := Option.bind_eq_some_iff.mp h
  cases hv
  exact ⟨result, u, hu, rfl, rfl⟩

/-- Making a watched call is making the call and taking a note. -/
theorem watched_returns {s : Session ι (Notes γ)} {outcome : Except Failure Json}
    {t : Session ι γ} (h : call.proceed.Returns (s.withGuest s.guest.own) outcome t) :
    call.watched.proceed.Returns s outcome (t.withGuest ⟨t.guest,
      s.guest.attempts ++ [⟨s.pauses.toList.drop s.guest.mark, outcome, t.clock.now⟩],
      t.pauses.size⟩) := by
  change call.proceed _ = _ at h
  change (do let (o, u) ← call.proceed _; _) = _
  rw [h]
  rfl

theorem watched_ends (h : call.proceed.Ends) : call.watched.proceed.Ends := by
  intro s
  obtain ⟨outcome, t, ht⟩ := h (s.withGuest s.guest.own)
  exact ⟨outcome, _, watched_returns ht⟩

theorem watched_spares (h : call.proceed.Ends) (hk : call.proceed.Spares i k) :
    call.watched.proceed.Spares i k := by
  intro s a t ht hs
  obtain ⟨outcome, u, hu⟩ := h (s.withGuest s.guest.own)
  obtain ⟨-, rfl⟩ := ht.unique (watched_returns hu)
  exact hk _ outcome u hu hs

/-- A guarded call leaves a key alone under observation if it does so at all. -/
theorem visit_spares (j : Nat) (key : String)
    {guard : Call ι (Notes γ) → Action ι (Notes γ) Result}
    (h : (guard call.watched).Ends) (hk : (guard call.watched).Spares i k) :
    (call.visit j key guard).Ends ∧ (call.visit j key guard).Spares i k := by
  refine ⟨fun s => ?_, fun s v t ht hs => ?_⟩
  · obtain ⟨result, t, ht⟩ := h s.noting
    exact ⟨_, _, visit_returns ht⟩
  · obtain ⟨result, u, hu⟩ := h s.noting
    obtain ⟨-, rfl⟩ := ht.unique (visit_returns hu)
    exact hk _ result u hu hs

end Call

end CallGuard
