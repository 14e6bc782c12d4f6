import Mathlib.Data.List.Perm.Basic
import CallGuard.Proofs.Frames
import CallGuard.Proofs.Ledger.Steps
/-! # Calls that overlap

Between its admission and its completion a call holds the sequence that it was admitted for, and any
number of other calls may be admitted and settled meanwhile. So what calls do to a ledger is a list
of moves, each an admission or a completion, and the calls under way are kept beside the ledger.
`stateful_moves` is the link to the calls themselves: whatever a call with a key does to a ledger
is such a list, with the moves of the calls made within its attempt in the middle. What is asked of
the moves under a key holds if each call asks as it should: `stateful_keepsTo` is the case of one
policy. -/

namespace CallGuard

/-- A call between its admission and its completion. -/
structure Flight where
  key : String
  policy : Policy
  sequence : SequenceId

/-- A ledger with the calls under way. -/
structure Traffic where
  ledger : Ledger
  flights : List Flight

/-- What a call does to a ledger at once. -/
inductive Move where
  | asks (key : String) (policy : Policy) (refresh : Bool) (created asked : Nat)
  /-- The call in this place among those under way fails. -/
  | fails (place : Nat) (failure : Failure) (now : Nat)
  | succeeds (place : Nat)

namespace Traffic

/-- The step of a move; nothing happens where no call is under way in the place. -/
def step (a : Traffic) : Move → Traffic
  | .asks key policy refresh created asked =>
    match a.ledger.ask policy key refresh created asked with
    | (.admitted n, l, _) => ⟨l, a.flights ++ [⟨key, policy, n⟩]⟩
    | (_, l, _) => { a with ledger := l }
  | .fails place f now =>
    match a.flights[place]? with
    | some fl => ⟨(a.ledger.fail fl.policy fl.sequence f now).2.1, a.flights.eraseIdx place⟩
    | none => a
  | .succeeds place =>
    match a.flights[place]? with
    | some fl => ⟨a.ledger.succeed fl.policy fl.key, a.flights.eraseIdx place⟩
    | none => a

section Step

variable {a : Traffic} {place : Nat} {fl : Flight} {key : String} {policy : Policy} {refresh : Bool}
  {created asked : Nat} {l : Ledger} {events : List Event}

theorem step_admitted {n : SequenceId}
    (h : a.ledger.ask policy key refresh created asked = (.admitted n, l, events)) :
    a.step (.asks key policy refresh created asked) = ⟨l, a.flights ++ [⟨key, policy, n⟩]⟩ := by
  simp only [step, h]

theorem step_refused {x : Context}
    (h : a.ledger.ask policy key refresh created asked = (.refused x, l, events)) :
    a.step (.asks key policy refresh created asked) = ⟨l, a.flights⟩ := by
  simp only [step, h]

theorem step_full {capacity : Nat}
    (h : a.ledger.ask policy key refresh created asked = (.full capacity, l, events)) :
    a.step (.asks key policy refresh created asked) = ⟨l, a.flights⟩ := by
  simp only [step, h]

theorem step_fails (h : a.flights[place]? = some fl) (f : Failure) (now : Nat) :
    a.step (.fails place f now) =
      ⟨(a.ledger.fail fl.policy fl.sequence f now).2.1, a.flights.eraseIdx place⟩ := by
  simp only [step, h]

theorem step_succeeds (h : a.flights[place]? = some fl) :
    a.step (.succeeds place) =
      ⟨a.ledger.succeed fl.policy fl.key, a.flights.eraseIdx place⟩ := by
  simp only [step, h]

theorem step_nobody (h : a.flights[place]? = none) (f : Failure) (now : Nat) :
    a.step (.fails place f now) = a ∧ a.step (.succeeds place) = a := by
  simp only [step, h, and_self]

end Step

def inFlight (a : Traffic) (key : String) : Nat := a.flights.countP (·.key == key)

/-- The calls under way for a sequence. -/
def inFlightFor (a : Traffic) (n : SequenceId) : Nat := a.flights.countP (·.sequence == n)

/-- The ledger is sound, and what is under way for a key's current sequence is under the key. -/
structure Sound (a : Traffic) : Prop where
  ledger : a.ledger.Sound
  opened : ∀ fl ∈ a.flights, fl.sequence < a.ledger.contexts.size
  under : ∀ fl ∈ a.flights, ∀ k, a.ledger.live.get? k = some fl.sequence → k = fl.key

theorem sound_begin {l : Ledger} (h : l.Sound) : Sound ⟨l, []⟩ := ⟨h, nofun, nofun⟩

theorem Sound.inFlightFor_le {a : Traffic} (h : a.Sound) {key : String} {n : SequenceId}
    (hk : a.ledger.live.get? key = some n) : a.inFlightFor n ≤ a.inFlight key := by
  refine List.countP_mono_left fun fl hfl hn => ?_
  rw [beq_iff_eq] at hn ⊢
  exact (h.under fl hfl key (by rw [hn]; exact hk)).symm

/-- Flights stay as they should while the ledger moves on. -/
theorem Sound.carry {a : Traffic} (h : a.Sound) {l : Ledger} (hl : l.Sound)
    (he : a.ledger.Extends l) {flights : List Flight} (hsub : ∀ fl ∈ flights, fl ∈ a.flights) :
    Sound ⟨l, flights⟩ where
  ledger := hl
  opened fl hfl := Nat.lt_of_lt_of_le (h.opened fl (hsub fl hfl)) he.size_le
  under fl hfl k hk :=
    h.under fl (hsub fl hfl) k (he.live (h.opened fl (hsub fl hfl)) hk)

theorem Sound.step {a : Traffic} (h : a.Sound) (m : Move) : (a.step m).Sound := by
  cases m with
  | asks key policy refresh created asked =>
    rcases h.ledger.ask policy key refresh created asked with
      ⟨-, -, ha⟩ | ⟨n, x, l, -, hl, -, he, ⟨-, ha, hc⟩ | ⟨-, ha, -⟩⟩
    · rw [step_full ha]; exact h
    · rw [step_admitted ha]
      obtain ⟨hlive, -⟩ := Ledger.current?_eq_some.mp hc
      have hold := h.carry hl he fun _ hfl => hfl
      refine ⟨hl, fun fl hfl => ?_, fun fl hfl k hk => ?_⟩
      · rcases List.mem_append.mp hfl with hfl | hfl
        · exact hold.opened fl hfl
        · cases List.mem_singleton.mp hfl; exact hl.opened hlive
      · rcases List.mem_append.mp hfl with hfl | hfl
        · exact hold.under fl hfl k hk
        · cases List.mem_singleton.mp hfl; exact hl.apart hk hlive
    · rw [step_refused ha]; exact h.carry hl he fun _ hfl => hfl
  | fails place f now =>
    cases hfl : a.flights[place]? with
    | none => rw [(step_nobody hfl f now).1]; exact h
    | some fl =>
      rw [step_fails hfl]
      exact h.carry (h.ledger.fail _ _ _ _) (Ledger.extends_setContext _ _ _)
        fun _ hfl => List.mem_of_mem_eraseIdx hfl
  | succeeds place =>
    cases hfl : a.flights[place]? with
    | none => rw [(step_nobody hfl default 0).2]; exact h
    | some fl =>
      rw [step_succeeds hfl]
      exact h.carry (h.ledger.release _ _) (Ledger.extends_release _ _ _)
        fun _ hfl => List.mem_of_mem_eraseIdx hfl

/-! ## Counting calls under way -/

theorem countP_settled {flights : List Flight} {place : Nat} {fl : Flight}
    (h : flights[place]? = some fl) (p : Flight → Bool) :
    flights.countP p = (flights.eraseIdx place).countP p + if p fl then 1 else 0 := by
  obtain ⟨hlt, rfl⟩ := List.getElem?_eq_some_iff.mp h
  rw [← (List.getElem_cons_eraseIdx_perm hlt).countP_eq p, List.countP_cons]

theorem countP_admitted (flights : List Flight) (fl : Flight) (p : Flight → Bool) :
    (flights ++ [fl]).countP p = flights.countP p + if p fl then 1 else 0 := by
  rw [List.countP_append, List.countP_singleton]

end Traffic

/-! ## Calls are made of moves -/

namespace Action

variable {ι γ α β : Type} {i : Nat}

/-- What the action does to a ledger is a list of moves, whatever calls are under way around it,
and no call of its own is under way when it ends. -/
def Moves (i : Nat) (act : Action ι γ α) : Prop :=
  ∀ s a t, act.Returns s a t → ∀ flights, ∃ ms : List Move,
    ms.foldl Traffic.step ⟨s.ledgers.get i, flights⟩ = ⟨t.ledgers.get i, flights⟩

/-- The same with moves of one sort only. -/
def MovesOnly (ok : Move → Prop) (i : Nat) (act : Action ι γ α) : Prop :=
  ∀ s a t, act.Returns s a t → ∀ flights, ∃ ms : List Move, (∀ m ∈ ms, ok m) ∧
    ms.foldl Traffic.step ⟨s.ledgers.get i, flights⟩ = ⟨t.ledgers.get i, flights⟩

variable {ok : Move → Prop} {act : Action ι γ α} {next : α → Action ι γ β}

theorem MovesOnly.moves (h : act.MovesOnly ok i) : act.Moves i := by
  intro s a t ht flights
  obtain ⟨ms, -, hms⟩ := h s a t ht flights
  exact ⟨ms, hms⟩

theorem Moves.only (h : act.Moves i) : act.MovesOnly (fun _ => True) i := by
  intro s a t ht flights
  obtain ⟨ms, hms⟩ := h s a t ht flights
  exact ⟨ms, fun _ _ => trivial, hms⟩

theorem MovesOnly.bind (h : act.MovesOnly ok i) (hn : ∀ a, (next a).MovesOnly ok i) :
    (act >>= next).MovesOnly ok i := by
  intro s b u hb flights
  obtain ⟨a, t, ha, hb⟩ := hb.of_bind
  obtain ⟨ms, hok, hms⟩ := h s a t ha flights
  obtain ⟨ns, hok', hns⟩ := hn a t b u hb flights
  exact ⟨ms ++ ns, List.forall_mem_append.mpr ⟨hok, hok'⟩, by rw [List.foldl_append, hms, hns]⟩

theorem moves_of_same (h : ∀ l, act.Preserves fun s => s.ledgers = l) : act.MovesOnly ok i := by
  intro s a t ht flights
  exact ⟨[], List.forall_mem_nil _, by rw [h s.ledgers s a t ht rfl]; rfl⟩

theorem onLedger_leaves {step : Ledger → α × Ledger × List Event} {s t : Session ι γ} {a : α}
    (h : (onLedger i step).Returns s a t) :
    step (s.ledgers.get i) = (a, t.ledgers.get i, (step (s.ledgers.get i)).2.2) := by
  cases h
  rw [Shelf.get_set_self]

end Action

namespace Execution

open CallGuard.Action

variable {ι γ : Type} {i : Nat} {call : Call ι γ}

theorem refuse_moves {ok : Move → Prop} (terms : Terms) (hcall : call.proceed.MovesOnly ok i)
    (x : Context) : (refuse terms call x).MovesOnly ok i := by
  have hpure (result : Result) : (pure result : Action ι γ Result).MovesOnly ok i :=
    moves_of_same fun _ => .pure _
  unfold refuse
  split
  · exact moves_of_same fun l => recover_preserves (indifferent_ledgers (· = l)) _ call _
  · split
    · exact hpure _
    · exact hpure _
    · exact hcall.bind fun _ => hpure _

/-- **A call with a key is an admission and, if it is admitted, a completion**, with whatever is
done while the call is made in between. -/
theorem stateful_movesOnly {ok : Move → Prop} (terms : Terms) (key : RetryKey)
    (hasks : ∀ created asked, ok (.asks key.key terms.policy key.refresh created asked))
    (hfails : ∀ place f now, ok (.fails place f now)) (hsucceeds : ∀ place, ok (.succeeds place))
    (hcall : call.proceed.MovesOnly ok i) : (stateful i terms key call).MovesOnly ok i := by
  rw [stateful_uninterrupted]
  intro s result v h flights
  obtain ⟨created, s₁, hcreated, h⟩ := h.of_bind
  obtain ⟨asked, s₂, hasked, h⟩ := h.of_bind
  obtain ⟨admission, t, hadmission, h⟩ := h.of_bind
  have hsame := indifferent_ledgers (ι := ι) (γ := γ) (· = s.ledgers)
  have hask := onLedger_leaves hadmission
  rw [hsame.now s₁ asked s₂ hasked (hsame.now s created s₁ hcreated rfl)] at hask
  let ask := Move.asks key.key terms.policy key.refresh created asked
  cases admission with
  | full capacity =>
    cases h
    exact ⟨[ask], List.forall_mem_singleton.mpr (hasks created asked),
      Traffic.step_full (a := ⟨s.ledgers.get i, flights⟩) hask⟩
  | refused x =>
    obtain ⟨ms, hok, hms⟩ := refuse_moves terms hcall x t result v h flights
    have hstep := Traffic.step_refused (a := ⟨s.ledgers.get i, flights⟩) hask
    exact ⟨ask :: ms, List.forall_mem_cons.mpr ⟨hasks created asked, hok⟩,
      by rw [List.foldl_cons, hstep]; exact hms⟩
  | admitted n =>
    obtain ⟨fl, hfl⟩ : ∃ fl : Flight, fl = ⟨key.key, terms.policy, n⟩ := ⟨_, rfl⟩
    have hplace : (flights ++ [fl])[flights.length]? = some fl := List.getElem?_concat_length
    have hover : (flights ++ [fl]).eraseIdx flights.length = flights := by
      rw [List.eraseIdx_append_of_length_le (Nat.le_refl _), Nat.sub_self]
      exact List.append_nil flights
    obtain ⟨outcome, u, hu, h⟩ := h.of_bind
    obtain ⟨ms, hok, hms⟩ := hcall t outcome u hu (flights ++ [fl])
    have hall (last : Move) (hlast : ok last) : ∀ m ∈ ask :: (ms ++ [last]), ok m :=
      List.forall_mem_cons.mpr ⟨hasks created asked,
        List.forall_mem_append.mpr ⟨hok, List.forall_mem_singleton.mpr hlast⟩⟩
    have hduring (last : Move) : (ask :: (ms ++ [last])).foldl Traffic.step
        ⟨s.ledgers.get i, flights⟩ = Traffic.step ⟨u.ledgers.get i, flights ++ [fl]⟩ last := by
      have hstep := Traffic.step_admitted (a := ⟨s.ledgers.get i, flights⟩) hask
      rw [← hfl] at hstep
      rw [List.foldl_cons, hstep, List.foldl_append, hms]; rfl
    cases outcome with
    | ok value =>
      obtain ⟨⟨⟩, w, hw, h⟩ := h.of_bind
      cases h
      have hdone := onLedger_leaves hw
      refine ⟨_, hall _ (hsucceeds flights.length),
        (hduring (.succeeds flights.length)).trans ?_⟩
      rw [Traffic.step_succeeds hplace, hover, hfl]
      exact congrArg (Traffic.mk · flights) (congrArg (·.2.1) hdone)
    | error f =>
      obtain ⟨now, u', hnow, h⟩ := h.of_bind
      obtain ⟨setback, w, hw, h⟩ := h.of_bind
      have hu' := (indifferent_ledgers (· = u.ledgers)).now u now u' hnow rfl
      have hdone := onLedger_leaves hw
      rw [hu'] at hdone
      have hv : v.ledgers = w.ledgers :=
        setback_preserves (indifferent_ledgers (· = w.ledgers)) terms _ setback.retryAgain
          setback.attempts (.error (.failed f)) w result v h rfl
      refine ⟨_, hall _ (hfails flights.length f now),
        (hduring (.fails flights.length f now)).trans ?_⟩
      rw [Traffic.step_fails hplace, hover, hv, hfl]
      exact congrArg (Traffic.mk · flights) (congrArg (·.2.1) hdone)

theorem stateful_moves (terms : Terms) (key : RetryKey) (hcall : call.proceed.Moves i) :
    (stateful i terms key call).Moves i :=
  (stateful_movesOnly terms key (fun _ _ => trivial) (fun _ _ _ => trivial) (fun _ => trivial)
    hcall.only).moves

end Execution

namespace Traffic

/-- Whether the move is a failure of a call under the key. -/
def failsUnder (a : Traffic) (key : String) : Move → Bool
  | .fails place _ _ => a.flights[place]?.any (·.key == key)
  | _ => false

end Traffic

/-- Wherever it asks under the key, it asks this policy and sets no attempts aside. -/
def Move.KeepsTo (key : String) (policy : Policy) : Move → Prop
  | .asks k p refresh _ _ => k = key → p = policy ∧ refresh = false
  | _ => True

/-- Calls that have this policy whenever they have the key make no other moves. -/
theorem Execution.stateful_keepsTo {ι γ : Type} {i : Nat} {call : Call ι γ} {k : String}
    {policy : Policy} {terms : Terms} {key : RetryKey}
    (hkey : key.key = k → terms.policy = policy ∧ key.refresh = false)
    (hcall : call.proceed.MovesOnly (Move.KeepsTo k policy) i) :
    (stateful i terms key call).MovesOnly (Move.KeepsTo k policy) i :=
  stateful_movesOnly terms key (fun _ _ => hkey) (fun _ _ _ => trivial) (fun _ => trivial) hcall

end CallGuard
