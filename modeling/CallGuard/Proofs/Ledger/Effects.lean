import CallGuard.Proofs.Ledger.Traffic
/-! # What a move does to one key

As far as one key is concerned a move is one of six things: an admission under the key that is
granted, refused, or turned away for want of room; a failure or a success of a call under the key;
or something that happens under another key and does not show. `Sound.effect` says so once, with all
that each of them does to the entry of the key and to the calls under way, so that what a list of
moves preserves is shown by going through six cases. -/

namespace CallGuard

namespace Move

/-- Of things kept for the calls under way, by place, those of the calls that stay. -/
def clear {α : Type} : Move → List α → List α
  | .asks .., things => things
  | .fails place _ _, things | .succeeds place, things => things.eraseIdx place

/-- What stays was at one place before, whatever is kept. -/
theorem getElem?_clear (m : Move) (i : Nat) :
    ∃ j : Nat, ∀ {α : Type} (things : List α), (m.clear things)[i]? = things[j]? := by
  have herase (place : Nat) :
      ∃ j : Nat, ∀ {α : Type} (things : List α), (things.eraseIdx place)[i]? = things[j]? := by
    by_cases h : i < place
    · exact ⟨i, fun _ => by rw [List.getElem?_eraseIdx, if_pos h]⟩
    · exact ⟨i + 1, fun _ => by rw [List.getElem?_eraseIdx, if_neg h]⟩
  cases m with
  | asks => exact ⟨i, fun _ => rfl⟩
  | fails place => exact herase place
  | succeeds place => exact herase place

theorem mem_clear {α : Type} {m : Move} {things : List α} {a : α} (h : a ∈ m.clear things) :
    a ∈ things := by
  cases m with
  | asks => exact h
  | fails => exact List.mem_of_mem_eraseIdx h
  | succeeds => exact List.mem_of_mem_eraseIdx h

theorem length_clear {α β : Type} (m : Move) {things : List α} {others : List β}
    (h : things.length = others.length) : (m.clear things).length = (m.clear others).length := by
  cases m with
  | asks => exact h
  | fails place => simp only [clear, List.length_eraseIdx, h]
  | succeeds place => simp only [clear, List.length_eraseIdx, h]

end Move

/-- Where no attempts are set aside, an admission is about the entry that there is. -/
theorem Ledger.Opens.entry {l : Ledger} {key : String} {now : Nat} {n : SequenceId} {x : Context}
    {e : SequenceId × Context} (h : l.Opens key false now n x) (he : l.current? key = some e) :
    e = (n, x) := by
  cases h with
  | known _ hknown => exact Option.some.inj (he.symm.trans hknown)
  | new hnone => rw [hnone rfl] at he; cases he

namespace Traffic

/-- Whether the move is one of a call under the key. -/
def concerns (a : Traffic) (key : String) : Move → Bool
  | .asks k _ _ _ _ => k == key
  | .fails place _ _ | .succeeds place => a.flights[place]?.any (·.key == key)

/-- Whether the move drops the entry of the key. -/
def drops (a : Traffic) (key : String) (m : Move) : Bool :=
  (a.ledger.get? key).isSome && ((a.step m).ledger.get? key).isNone

/-- What a move does to the entry of a key and to the calls under way. -/
inductive Effect (key : String) (a b : Traffic) : Move → Prop where
  | admitted {policy : Policy} {refresh : Bool} {created asked n : Nat} {x : Context} :
      a.ledger.Opens key refresh created n x → (policy.check x asked).allowed = true →
      b.ledger.current? key = some (n, (policy.check x asked).context) →
      b.flights = a.flights ++ [⟨key, policy, n⟩] →
      Effect key a b (.asks key policy refresh created asked)
  | refused {policy : Policy} {refresh : Bool} {created asked n : Nat} {x : Context} :
      a.ledger.Opens key refresh created n x → (policy.check x asked).allowed = false →
      b.ledger.current? key =
        (if policy.isShared then some (n, (policy.check x asked).context) else none) →
      b.flights = a.flights → Effect key a b (.asks key policy refresh created asked)
  | turnedAway {policy : Policy} {refresh : Bool} {created asked : Nat} :
      a.ledger.current? key = none → b = a →
      Effect key a b (.asks key policy refresh created asked)
  | failed {place now : Nat} {f : Failure} {fl : Flight} :
      a.flights[place]? = some fl → fl.key = key →
      b.ledger.current? key = ((a.ledger.current? key).map fun e =>
        if e.1 = fl.sequence then (fl.sequence, (fl.policy.check (e.2.fail f) now).context)
        else e) →
      b.flights = a.flights.eraseIdx place → Effect key a b (.fails place f now)
  | succeeded {place : Nat} {fl : Flight} :
      a.flights[place]? = some fl → fl.key = key →
      b.ledger.current? key = (if fl.policy.isShared then a.ledger.current? key else none) →
      b.flights = a.flights.eraseIdx place → Effect key a b (.succeeds place)
  /-- Under another key; a call that comes is under that key. -/
  | elsewhere {m : Move} {comes : List Flight} :
      a.concerns key m = false → b.ledger.current? key = a.ledger.current? key →
      b.flights = m.clear a.flights ++ comes → (∀ fl ∈ comes, fl.key ≠ key) → Effect key a b m

variable {a : Traffic} {key : String}

/-- Under another key, and no call comes. -/
theorem Effect.leaves {b : Traffic} {m : Move} (hother : a.concerns key m = false)
    (hc : b.ledger.current? key = a.ledger.current? key) (hf : b.flights = m.clear a.flights) :
    Effect key a b m :=
  .elsewhere hother hc (hf.trans (List.append_nil _).symm) (List.forall_mem_nil _)

theorem effect_asks (h : a.Sound) (policy : Policy) (refresh : Bool) (created asked : Nat) :
    Effect key a (a.step (.asks key policy refresh created asked))
      (.asks key policy refresh created asked) := by
  rcases h.ledger.ask policy key refresh created asked with
    ⟨hnone, -, ha⟩ | ⟨n, x, l, hopens, -, -, -, ⟨hyes, ha, hc⟩ | ⟨hno, ha, hc⟩⟩
  · exact .turnedAway hnone (step_full ha)
  · rw [step_admitted ha]
    exact .admitted hopens hyes hc rfl
  · rw [step_refused ha]
    exact .refused hopens hno hc rfl

theorem effect_asks_other (h : a.Sound) {k : String} (hk : k ≠ key) (policy : Policy)
    (refresh : Bool) (created asked : Nat) :
    Effect key a (a.step (.asks k policy refresh created asked))
      (.asks k policy refresh created asked) := by
  have hother : a.concerns key (.asks k policy refresh created asked) = false := beq_false_of_ne hk
  rcases h.ledger.ask policy k refresh created asked with
    ⟨-, -, ha⟩ | ⟨n, x, l, -, -, helse, -, ⟨-, ha, -⟩ | ⟨-, ha, -⟩⟩
  · rw [step_full ha]
    exact .leaves hother rfl rfl
  · rw [step_admitted ha]
    exact .elsewhere hother (helse key (Ne.symm hk)) rfl fun fl hfl => by
      cases List.mem_singleton.mp hfl; exact hk
  · rw [step_refused ha]
    exact .leaves hother (helse key (Ne.symm hk)) rfl

/-- Nobody is under way in the place of the move. -/
theorem effect_nobody {m : Move} {place : Nat} (hfl : a.flights[place]? = none)
    (hm : (∃ f now, m = .fails place f now) ∨ m = .succeeds place) :
    Effect key a (a.step m) m := by
  have hstay : a.flights.eraseIdx place = a.flights :=
    List.eraseIdx_of_length_le (List.getElem?_eq_none_iff.mp hfl)
  rcases hm with ⟨f, now, rfl⟩ | rfl
  · rw [(step_nobody hfl f now).1]
    exact .leaves (by simp [concerns, hfl]) rfl hstay.symm
  · rw [(step_nobody hfl default 0).2]
    exact .leaves (by simp [concerns, hfl]) rfl hstay.symm

/-- A failure gives no key another sequence. -/
theorem live_fails (a : Traffic) (place : Nat) (f : Failure) (now : Nat) :
    (a.step (.fails place f now)).ledger.live = a.ledger.live := by
  unfold step
  dsimp only
  split <;> rfl

/-- **The six things that a move can do to a key.** -/
theorem Sound.effect (h : a.Sound) (key : String) (m : Move) : Effect key a (a.step m) m := by
  cases m with
  | asks k policy refresh created asked =>
    by_cases hk : k = key
    · subst hk; exact effect_asks h policy refresh created asked
    · exact effect_asks_other h hk policy refresh created asked
  | fails place f now =>
    cases hfl : a.flights[place]? with
    | none => exact effect_nobody hfl (.inl ⟨f, now, rfl⟩)
    | some fl =>
      rw [step_fails hfl]
      by_cases hk : fl.key = key
      · exact .failed hfl hk (h.ledger.current?_fail ..) rfl
      · have hlive : a.ledger.live.get? key ≠ some fl.sequence := fun hl =>
          hk (h.under fl (List.mem_of_getElem? hfl) key hl).symm
        exact .leaves (by simp [concerns, hfl, hk]) (Ledger.fail_elsewhere hlive ..) rfl
  | succeeds place =>
    cases hfl : a.flights[place]? with
    | none => exact effect_nobody hfl (.inr rfl)
    | some fl =>
      rw [step_succeeds hfl]
      by_cases hk : fl.key = key
      · exact .succeeded hfl hk (by rw [← hk]; exact Ledger.current?_release_self ..) rfl
      · exact .leaves (by simp [concerns, hfl, hk])
          (Ledger.release_elsewhere _ _ _ key (Ne.symm hk)) rfl

end Traffic

end CallGuard
