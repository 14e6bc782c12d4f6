import CallGuard.Proofs.Circuit.Breaker
import CallGuard.Proofs.Ledger.OneContext
import CallGuard.Proofs.Reports
/-! # The log of a circuit tells its history

Attempts fail, and checks restart the window, open the circuit or close it; only opening and closing
are reported. `Truthful` says of such a history that its reports alternate, and that the number in
each opening is that of the failed attempts which count at that time. A context records the history
that has led to it (`Records`): its number of attempts is the count, and its flag says whether the
latest report is an opening. One check keeps this in each of its six cases (`Records.check`), and so
does every call and every run. -/

namespace CallGuard

variable {ι γ : Type}

/-- Whether it reports the opening of a circuit. -/
def Event.isOpening : Event → Bool
  | .circuitOpens _ _ => true
  | _ => false

namespace Circuit

inductive Happening where
  /-- An attempt of a call fails. -/
  | failed
  /-- A check begins a new window, without closing the circuit. -/
  | restarted
  | reported (event : Event)
deriving DecidableEq, Repr

def Happening.event? : Happening → Option Event
  | reported e => some e
  | _ => none

/-- What has been reported. -/
def log (past : List Happening) : List Event := past.filterMap Happening.event?

/-- Failed attempts count until the circuit closes or its window is restarted. -/
def Happening.count (n : Nat) : Happening → Nat
  | failed => n + 1
  | restarted => 0
  | reported (.circuitCloses _) => 0
  | reported _ => n

/-- The number of failed attempts since the circuit was last closed or its window last restarted. -/
def failures (past : List Happening) : Nat := past.foldl Happening.count 0

/-- What happens in a check. -/
def happenings (c : Circuit) (x : Context) (now : Nat) : List Happening :=
  match (c.check x now).events with
  | [] => if c.renews x now then [.restarted] else []
  | e :: es => (e :: es).map .reported

/-- Openings and closings alternate, an opening first, and each opening reports the failed attempts
that count: at least one, and no more than the limit. -/
structure Truthful (c : Circuit) (past : List Happening) : Prop where
  alternates : ∀ j e, (log past)[j]? = some e →
    if j % 2 = 0 then ∃ n, e = .circuitOpens c.label n else e = .circuitCloses c.label
  counts : ∀ earlier later label n, past = earlier ++ .reported (.circuitOpens label n) :: later →
    n = failures earlier ∧ 1 ≤ n ∧ n ≤ c.attempts.limit

/-- The context has recorded what happened to the circuit. -/
structure Records (c : Circuit) (past : List Happening) (x : Context) : Prop where
  coherent : x.Coherent
  counted : x.attempts = failures past
  bounded : x.attempts ≤ c.attempts.limit
  /-- An open circuit admits no attempt. -/
  shut : x.isOpen = true → c.attempts.allows x = false
  /-- Reports alternate, so an open circuit has made an odd number of them. -/
  flag : x.isOpen = decide ((log past).length % 2 = 1)
  truthful : c.Truthful past

variable {c : Circuit} {past : List Happening} {x : Context} {now : Nat}

theorem failures_concat (past : List Happening) (h : Happening) :
    failures (past ++ [h]) = h.count (failures past) := by
  simp [failures]

theorem log_append (past later : List Happening) : log (past ++ later) = log past ++ log later :=
  List.filterMap_append

theorem log_concat (past : List Happening) (last : Happening) :
    log (past ++ [last]) = log past ++ last.event?.toList := by
  rw [log_append]
  simp only [log, List.filterMap_cons, List.filterMap_nil]
  cases last.event? <;> rfl

theorem log_unsaid {last : Happening} (h : last.event? = none) :
    log (past ++ [last]) = log past := by
  rw [log_concat, h, Option.toList_none, List.append_nil]

theorem length_log_reported (past : List Happening) (e : Event) :
    (log (past ++ [.reported e])).length = (log past).length + 1 := by
  rw [log_concat, List.length_append]
  rfl

theorem log_happenings (c : Circuit) (x : Context) (now : Nat) :
    log (c.happenings x now) = (c.check x now).events := by
  have hall : ∀ es : List Event, log (es.map .reported) = es := by
    intro es
    simp [log, List.filterMap_map, Function.comp_def, Happening.event?]
  unfold happenings
  split
  · next hnone =>
    rw [hnone]
    split <;> rfl
  · next e es hsome => rw [hsome, hall]

/-! ## Histories -/

theorem truthful_nil (c : Circuit) : c.Truthful [] where
  alternates j e he := by simp [log] at he
  counts earlier later label n h := by simp at h

/-- What happens next has to fit in. -/
theorem Truthful.concat (h : c.Truthful past) {last : Happening}
    (hlog : ∀ e, last.event? = some e →
      if (log past).length % 2 = 0 then ∃ n, e = .circuitOpens c.label n
      else e = .circuitCloses c.label)
    (hcount : ∀ label n, last = .reported (.circuitOpens label n) →
      n = failures past ∧ 1 ≤ n ∧ n ≤ c.attempts.limit) :
    c.Truthful (past ++ [last]) where
  alternates j e he := by
    rw [log_concat, List.getElem?_append] at he
    split at he
    · exact h.alternates j e he
    · next hj =>
      obtain ⟨hlt, -⟩ := List.getElem?_eq_some_iff.mp he
      cases hlast : last.event? with
      | none => simp [hlast] at hlt
      | some e' =>
        rw [hlast] at he hlt
        obtain rfl : e = e' := List.mem_singleton.mp (List.mem_of_getElem? he)
        obtain rfl : j = (log past).length := by
          have hone : j - (log past).length < 1 := hlt
          omega
        exact hlog e hlast
  counts earlier later label n heq := by
    rcases List.eq_nil_or_concat later with rfl | ⟨later, last', rfl⟩
    · obtain ⟨rfl, hlast⟩ := List.append_inj' heq rfl
      exact hcount label n (List.cons.inj hlast).1
    · have hsplit : past ++ [last] =
          (earlier ++ .reported (.circuitOpens label n) :: later) ++ [last'] := by
        simpa using heq
      obtain ⟨hpast, -⟩ := List.append_inj' hsplit rfl
      exact h.counts earlier later label n hpast

/-- What is not reported fits in anywhere. -/
theorem Truthful.unsaid (h : c.Truthful past) {last : Happening} (hlast : last.event? = none) :
    c.Truthful (past ++ [last]) := by
  refine h.concat (fun e he => ?_) fun label n heq => ?_
  · rw [hlast] at he; cases he
  · subst heq; cases hlast

/-- The latest report is an opening if the number of reports is odd. -/
theorem Truthful.latest (h : c.Truthful past) :
    (log past).getLast?.any Event.isOpening = decide ((log past).length % 2 = 1) := by
  rw [List.getLast?_eq_getElem?]
  cases hlast : (log past)[(log past).length - 1]? with
  | none =>
    have hnone : (log past).length = 0 := by
      have := List.getElem?_eq_none_iff.mp hlast
      omega
    rw [hnone]
    rfl
  | some e =>
    obtain ⟨hlt, -⟩ := List.getElem?_eq_some_iff.mp hlast
    have he := h.alternates _ e hlast
    by_cases heven : ((log past).length - 1) % 2 = 0
    · rw [if_pos heven] at he
      obtain ⟨n, rfl⟩ := he
      have hodd : (log past).length % 2 = 1 := by omega
      rw [decide_eq_true hodd]
      rfl
    · rw [if_neg heven] at he
      subst he
      have hodd : ¬ (log past).length % 2 = 1 := by omega
      rw [decide_eq_false hodd]
      rfl

/-! ## Checks and attempts -/

theorem records_fresh (c : Circuit) (now : Nat) : c.Records [] (Context.fresh now) where
  coherent := Context.coherent_fresh now
  counted := rfl
  bounded := Nat.zero_le _
  shut h := by cases h
  flag := rfl
  truthful := c.truthful_nil

/-- A failed attempt of an admitted call is recorded. -/
theorem Records.failed (h : c.Records past x) (ha : c.attempts.allows x = true) (f : Failure) :
    c.Records (past ++ [.failed]) (x.fail f) where
  coherent := x.coherent_fail f
  counted := by
    rw [failures_concat, ← h.counted]
    rfl
  bounded := (AttemptLimit.allows_iff.mp ha).2
  shut ho := by
    rw [h.shut ho] at ha
    cases ha
  flag := by
    rw [log_unsaid rfl]
    exact h.flag
  truthful := h.truthful.unsaid rfl

theorem Records.restarted (h : c.Records past x) (ho : x.isOpen = false) (now : Nat) :
    c.Records (past ++ [.restarted]) { x.restart now with isOpen := false } where
  coherent := x.coherent_restart now
  counted := (failures_concat past .restarted).symm
  bounded := Nat.zero_le _
  shut h := by cases h
  flag := by
    rw [log_unsaid rfl, ← h.flag, ho]
  truthful := h.truthful.unsaid rfl

theorem Records.closed (h : c.Records past x) (ho : x.isOpen = true) (now : Nat) :
    c.Records (past ++ [.reported (.circuitCloses c.label)])
      { x.restart now with isOpen := false } := by
  have hodd : (log past).length % 2 = 1 := of_decide_eq_true (h.flag.symm.trans ho)
  refine ⟨x.coherent_restart now, ?_, Nat.zero_le _, nofun, ?_, ?_⟩
  · rw [failures_concat]
    rfl
  · have heven : ¬ ((log past).length + 1) % 2 = 1 := by omega
    rw [length_log_reported, decide_eq_false heven]
  · refine h.truthful.concat (fun e he => ?_) nofun
    cases he
    rw [if_neg (by omega)]

theorem Records.opened (h : c.Records past x) (ho : x.isOpen = false)
    (ha : c.attempts.allows x = false) (now : Nat) :
    c.Records (past ++ [.reported (.circuitOpens c.label x.attempts)])
      { x with started := now, isOpen := true } := by
  have heven : ¬ (log past).length % 2 = 1 := of_decide_eq_false (h.flag.symm.trans ho)
  obtain ⟨f, hf⟩ := AttemptLimit.failed_of_refused h.coherent ha
  have hpos : 1 ≤ x.attempts := by
    refine Nat.one_le_iff_ne_zero.mpr fun hzero => ?_
    rw [h.coherent.mpr hzero] at hf
    cases hf
  refine ⟨h.coherent, ?_, h.bounded, fun _ => ha, ?_, ?_⟩
  · rw [failures_concat]
    exact h.counted
  · have hodd : ((log past).length + 1) % 2 = 1 := by omega
    rw [length_log_reported, decide_eq_true hodd]
  · refine h.truthful.concat (fun e he => ?_) fun label n heq => ?_
    · cases he
      rw [if_pos (by omega)]
      exact ⟨_, rfl⟩
    · cases heq
      exact ⟨h.counted, hpos, h.bounded⟩

/-- **What happens in a check is recorded by the context that it leaves.** -/
theorem Records.check (h : c.Records past x) (now : Nat) :
    c.Records (past ++ c.happenings x now) (c.check x now).context := by
  cases ha : c.attempts.allows x with
  | true =>
    have ho : x.isOpen = false := by
      cases ho : x.isOpen with
      | false => rfl
      | true => rw [h.shut ho] at ha; cases ha
    by_cases ht : age x now > c.openTimeout
    · have hrestarts : c.happenings x now = [.restarted] := by
        simp [happenings, check_past_window ha ht, renews, ha, ht]
      rw [hrestarts, check_past_window ha ht]
      exact h.restarted ho now
    · have hnothing : c.happenings x now = [] := by
        simp [happenings, check_in_window ha ht, renews, ha, ht]
      rw [hnothing, check_in_window ha ht, List.append_nil, ← ho]
      exact h
  | false =>
    cases ho : x.isOpen with
    | true =>
      by_cases ht : age x now > c.resetTimeout
      · have hcloses : c.happenings x now = [.reported (.circuitCloses c.label)] := by
          simp [happenings, check_closes ha ho ht]
        rw [hcloses, check_closes ha ho ht]
        exact h.closed ho now
      · have hnothing : c.happenings x now = [] := by
          simp [happenings, check_stays_open ha ho ht, renews, ha, ho, ht]
        rw [hnothing, check_stays_open ha ho ht, List.append_nil]
        exact h
    | false =>
      by_cases ht : age x now < c.openTimeout
      · have hopens : c.happenings x now = [.reported (.circuitOpens c.label x.attempts)] := by
          simp [happenings, check_opens ha ho ht]
        rw [hopens, check_opens ha ho ht]
        exact h.opened ho ha now
      · have hrestarts : c.happenings x now = [.restarted] := by
          simp [happenings, check_spread_out ha ho ht, renews, ha, ho, ht]
        rw [hrestarts, check_spread_out ha ho ht]
        exact h.restarted ho now

end Circuit

/-! ## Calls and runs -/

open Circuit

/-- What happens to a circuit in a visit: in the check for admission, and by the failure of an
attempt and in the check that counts it. -/
def Visit.happenings (v : Visit) (c : Circuit) : List Happening :=
  c.happenings (v.found.getD (Context.fresh v.begun)) v.asked ++ v.attempts.flatMap fun a =>
    match a.outcome with
    | .ok _ => []
    | .error f =>
      .failed :: c.happenings ((v.admission (.circuit c)).context.fail f) a.ended

namespace Circuit

variable {c : Circuit} {past : List Happening}

/-- What happens to a circuit in a run. -/
def history (c : Circuit) (seen : List (Round ι γ × Visit)) : List Happening :=
  seen.flatMap fun e => e.2.happenings c

theorem log_flatMap {ε : Type} (es : List ε) (f : ε → List Happening) :
    log (es.flatMap f) = es.flatMap fun e => log (f e) := List.filterMap_flatMap

/-- What is reported in a visit happens in it. -/
theorem log_visit (c : Circuit) (v : Visit) : log (v.happenings c) = v.reports (.circuit c) := by
  unfold Visit.happenings Visit.reports
  rw [log_append, log_happenings, log_flatMap]
  refine congrArg _ (List.flatMap_congr fun a _ => ?_)
  cases a.outcome with
  | ok value => rfl
  | error f => exact log_happenings c _ a.ended

theorem log_history {seen : List (Round ι γ × Visit)} (hp : ∀ e ∈ seen, e.1.policy = .circuit c) :
    log (history c seen) = seen.flatMap fun e => e.2.reports e.1.policy := by
  unfold history
  rw [log_flatMap]
  refine List.flatMap_congr fun e he => ?_
  rw [log_visit, hp e he]

/-- A call records what happens in it. -/
theorem Records.visit {terms : Terms} {arguments : List Json} {v : Visit}
    (h : c.Records past (v.found.getD (Context.fresh v.begun))) (hp : terms.policy = .circuit c)
    (hv : Served terms arguments v) (hroom : v.turnedAway = false) :
    ∃ y, v.left = some y ∧ c.Records (past ++ v.happenings c) y := by
  have hasked := h.check v.asked
  have hshared : (Policy.circuit c).isShared = true := rfl
  unfold Visit.happenings
  rw [← List.append_assoc]
  cases hv with
  | full n _ _ _ hfull => unfold Visit.turnedAway at hroom; rw [hfull] at hroom; cases hroom
  | refused last _ _ hatt _ _ hleft =>
    rw [hp, hshared, if_pos rfl] at hleft
    rw [hatt, List.flatMap_nil, List.append_nil]
    exact ⟨_, hleft, hasked⟩
  | succeeded value ended _ hatt _ _ hleft =>
    rw [hp, hshared, if_pos rfl] at hleft
    rw [hatt, List.flatMap_singleton, List.append_nil]
    exact ⟨_, hleft, hasked⟩
  | failed f ended words after hyes hatt _ hafter hleft =>
    rw [hp] at hyes hafter
    subst hafter
    rw [hatt, List.flatMap_singleton]
    have hadmitted : c.attempts.allows (v.admission (.circuit c)).context = true :=
      (c.check_settled _ _).1.symm.trans hyes
    have hfailed := (hasked.failed hadmitted f).check ended
    rw [List.append_assoc] at hfailed
    exact ⟨_, hleft, hfailed⟩

/-- **A run records what happens in it.** -/
theorem records_run {i : Nat} {seen : List (Round ι γ × Visit)} {found left : Option Context}
    (hchain : Traces (Links fun r v => Served (r.terms i) r.call.arguments v) found seen left)
    (hp : ∀ e ∈ seen, e.1.policy = .circuit c) (hroom : ∀ e ∈ seen, e.2.turnedAway = false)
    (h : ∀ now, c.Records past (found.getD (Context.fresh now))) (now : Nat) :
    c.Records (past ++ history c seen) (left.getD (Context.fresh now)) := by
  induction hchain generalizing past with
  | nil =>
    change c.Records (past ++ []) _
    rw [List.append_nil]
    exact h now
  | @cons found between left e seen hlink hchain ih =>
    obtain ⟨hfound, hleft, hserved⟩ := hlink
    obtain ⟨y, hy, hrecords⟩ := Records.visit (hfound ▸ h e.2.begun) (hp e (.head _)) hserved
      (hroom e (.head _))
    obtain rfl : between = some y := hleft.symm.trans hy
    unfold history at ih ⊢
    rw [List.flatMap_cons, ← List.append_assoc]
    exact ih (fun e he => hp e (.tail _ he)) (fun e he => hroom e (.tail _ he)) fun _ => hrecords

/-- **The log of a circuit tells its history.** In a run of calls on the terms of one circuit and
under one key, none of them short of room, circuits report the history of the circuit, and it is
truthful; and after each call the circuit is open if the latest report is of an opening. A circuit
without a context is closed. -/
theorem play_history (patience : Nat) {i : Nat} {key : String} {rounds : List (Round ι γ)}
    (hseq : ∀ r ∈ rounds, r.Sequential i key) (hquiet : ∀ r ∈ rounds, r.Quiet)
    (hkey : ∀ r ∈ rounds, r.key = key) (hpolicy : ∀ r ∈ rounds, r.policy = .circuit c)
    {s : Session ι γ} (hs : (s.ledgers.get i).Sound) (hnew : (s.ledgers.get i).get? key = none) :
    ∃ seen t, (play patience i rounds).Returns s seen t ∧ seen.map Prod.fst = rounds ∧
      ((∀ e ∈ seen, e.2.turnedAway = false) →
        t.told = s.told ++ log (history c seen) ∧ c.Truthful (history c seen) ∧
        ∀ done e later, seen = done ++ e :: later →
          e.2.left.any (·.isOpen) =
            (log (history c (done ++ [e]))).getLast?.any Event.isOpening) := by
  obtain ⟨seen, t, hplay, hmap, -, hchain⟩ := play_chained patience hseq hs
  have hround : ∀ e ∈ seen, e.1 ∈ rounds := fun e he => hmap ▸ List.mem_map_of_mem he
  have hunder : under key seen = seen :=
    List.filter_eq_self.mpr fun e he => decide_eq_true (hkey e.1 (hround e he))
  have hp : ∀ e ∈ seen, e.1.policy = .circuit c := fun e he => hpolicy e.1 (hround e he)
  rw [hnew, hunder] at hchain
  refine ⟨seen, t, hplay, hmap, fun hroom => ⟨?_, ?_, fun done e later hsplit => ?_⟩⟩
  · rw [log_history hp]
    exact play_told (fun r hr => hkey r hr ▸ hseq r hr) hquiet hs hplay hroom
  · exact (records_run hchain hp hroom c.records_fresh 0).truthful
  · -- the calls so far are a run as well, and it ends with what this one leaves
    rw [List.append_cons] at hsplit
    subst hsplit
    obtain ⟨left, hbegun, -⟩ := hchain.append
    obtain ⟨between, -, hlast⟩ := hbegun.append
    cases hlast with
    | cons hlink hnil =>
      cases hnil
      have hrecords := records_run hbegun (fun e he => hp e (List.mem_append_left _ he))
        (fun e he => hroom e (List.mem_append_left _ he)) c.records_fresh 0
      rw [List.nil_append] at hrecords
      rw [hrecords.truthful.latest, ← hrecords.flag, ← hlink.2.1]
      cases e.2.left <;> rfl

/-- A circuit opens, closes after its reset timeout, and opens again. -/
def flapping : List (Round Unit Unit) :=
  [.simple (.circuit Breaker.touchy) "stock" (Duration.ofMillis 100)
      (.error ⟨⟨.root "Down" "Down", "down"⟩, []⟩),
    .simple (.circuit Breaker.touchy) "stock" (Duration.ofMillis 25000) (.ok .null),
    .simple (.circuit Breaker.touchy) "stock" (Duration.ofMillis 100)
      (.error ⟨⟨.root "Down" "Down", "down"⟩, []⟩)]

example : ((play 0 0 flapping).run (Session.begin ())).map (·.2.told) =
    some [.circuitOpens "stock" 1, .circuitCloses "stock", .circuitOpens "stock" 1] := by
  decide +kernel

theorem play_history_flapping :
    ∃ seen t, (play 0 0 flapping).Returns (Session.begin ()) seen t ∧
      seen.map Prod.fst = flapping ∧
      t.told = (Session.begin () : Session Unit Unit).told ++ log (history Breaker.touchy seen) ∧
      Breaker.touchy.Truthful (history Breaker.touchy seen) ∧
      ∀ done e later, seen = done ++ e :: later →
        e.2.left.any (·.isOpen) =
          (log (history Breaker.touchy (done ++ [e]))).getLast?.any Event.isOpening := by
  have hround : ∀ r ∈ flapping, r.Sequential 0 "stock" ∧ r.Quiet ∧ r.key = "stock" ∧
      r.policy = .circuit Breaker.touchy := by
    intro r hr
    simp only [flapping, List.mem_cons, List.not_mem_nil, or_false] at hr
    rcases hr with rfl | rfl | rfl <;>
      exact ⟨Round.simple_sequential .., Round.simple_quiet .., rfl, rfl⟩
  have hroom : ((play 0 0 flapping).run (Session.begin ())).all
      (fun p => p.1.all fun e => !e.2.turnedAway) = true := by decide +kernel
  obtain ⟨seen, t, hplay, hmap, htells⟩ := play_history (s := Session.begin ()) (i := 0) 0
    (fun r hr => (hround r hr).1) (fun r hr => (hround r hr).2.1)
    (fun r hr => (hround r hr).2.2.1) (fun r hr => (hround r hr).2.2.2)
    (Ledger.sound_empty _) rfl
  exact ⟨seen, t, hplay, hmap, htells (all_housed_of_run hplay hroom)⟩

end Circuit

end CallGuard
