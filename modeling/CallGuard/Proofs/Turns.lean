import CallGuard.Proofs.Frames
/-! # The turns of a guard and its call

While a guard carries a call out, it and the call take turns: the call is made, and in between the
guard reads the clock, reports events and makes pauses. An interlude is what the guard does in one of
its turns, and `Turns` splits a whole run into the makings of the call and the interludes around
them. Nothing but these two kinds of steps can change the session, so what an interlude leaves alone
is changed by the call or not at all. -/

namespace CallGuard

variable {ι γ : Type}

/-- From `s` to `t` the guard has made these pauses; it has moved the clock, drawn words and reported
events at most besides. -/
structure Interlude (s : Session ι γ) (ps : List Pause) (t : Session ι γ) : Prop where
  pauses : t.pauses.toList = s.pauses.toList ++ ps
  frame : t = { s with clock := t.clock, words := t.words, pauses := t.pauses, events := t.events }

namespace Interlude

variable {s t u : Session ι γ} {ps qs : List Pause}

/-- An interlude without pauses. -/
theorem quiet (s : Session ι γ) (clock : Clock) (events : Array Event) :
    Interlude s [] { s with clock := clock, events := events } := ⟨by simp, rfl⟩

theorem refl (s : Session ι γ) : Interlude s [] s := quiet s s.clock s.events

theorem trans (h : Interlude s ps t) (h' : Interlude t qs u) : Interlude s (ps ++ qs) u where
  pauses := by rw [h'.pauses, h.pauses, List.append_assoc]
  frame := h'.frame.trans (by rw [h.frame])

theorem ledgers (h : Interlude s ps t) : t.ledgers = s.ledgers := by rw [h.frame]

theorem guest (h : Interlude s ps t) : t.guest = s.guest := by rw [h.frame]

theorem pauses_eq (h : Interlude s [] t) : t.pauses = s.pauses :=
  Array.toList_inj.mp (h.pauses.trans (List.append_nil _))

theorem keeps {P : Session ι γ → Prop} (hi : Action.Indifferent P) (h : Interlude s ps t)
    (hs : P s) : P t := by
  rw [h.frame]
  exact hi.pauses _ _ _ (hi.events _ _ (hi.clock _ _ hs))

/-- What is new in the list of pauses since it had the length of the first session. -/
theorem drop_pauses (h : Interlude s ps t) {mark : Nat} (hm : mark = s.pauses.size) :
    t.pauses.toList.drop mark = ps := by
  rw [h.pauses, hm, ← Array.length_toList, List.drop_left]

end Interlude

/-- A run from one session to another that consists of these makings of a call, each with the pauses
of the interlude before it, and of an interlude without pauses at the end. -/
inductive Turns (call : Call ι γ) : Session ι γ → List Attempt → Session ι γ → Prop
  | ended {s t : Session ι γ} : Interlude s [] t → Turns call s [] t
  | turn {s t u v : Session ι γ} {ps : List Pause} {outcome : Except Failure Json}
      {later : List Attempt} : Interlude s ps t → call.proceed.Returns t outcome u →
      Turns call u later v → Turns call s (⟨ps, outcome, u.clock.now⟩ :: later) v

namespace Turns

variable {call : Call ι γ}

/-- What no interlude changes is preserved by the whole run if the call preserves it. -/
theorem keeps {P : Session ι γ → Prop} (hi : Action.Indifferent P) (hcall : call.proceed.Preserves P)
    {s t : Session ι γ} {attempts : List Attempt} (h : Turns call s attempts t) (hs : P s) :
    P t := by
  induction h with
  | ended hst => exact hst.keeps hi hs
  | turn hst hcalled _ ih => exact ih (hcall _ _ _ hcalled (hst.keeps hi hs))

/-- Every attempt is a making of the call. -/
theorem made {s t : Session ι γ} {attempts : List Attempt} {a : Attempt}
    (h : Turns call s attempts t) (ha : a ∈ attempts) :
    ∃ u v, call.proceed.Returns u a.outcome v := by
  induction h with
  | ended _ => cases ha
  | turn _ hcalled _ ih =>
    rcases List.mem_cons.mp ha with rfl | hlater
    · exact ⟨_, _, hcalled⟩
    · exact ih hlater

/-- The notes of a watched call are about its turns. -/
theorem noted {s t : Session ι (Notes γ)} {attempts : List Attempt} (hend : call.proceed.Ends)
    (h : Turns call.watched s attempts t) (hm : s.guest.mark = s.pauses.size) :
    t.guest.attempts = s.guest.attempts ++ attempts ∧ t.guest.mark = t.pauses.size := by
  induction h with
  | ended hst =>
    rw [hst.guest, hst.pauses_eq, List.append_nil]
    exact ⟨rfl, hm⟩
  | @turn s t u v ps outcome later hst hcalled _ ih =>
    obtain ⟨_, w, hw⟩ := hend (t.withGuest t.guest.own)
    obtain ⟨rfl, rfl⟩ := hcalled.unique (Call.watched_returns hw)
    obtain ⟨hlater, hmark⟩ := ih rfl
    refine ⟨hlater.trans ?_, hmark⟩
    change t.guest.attempts ++ [⟨t.pauses.toList.drop t.guest.mark, _, _⟩] ++ later = _
    rw [hst.guest, hst.drop_pauses hm, List.append_assoc]
    rfl

end Turns

end CallGuard
