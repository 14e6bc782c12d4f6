import CallGuard.Policy
import CallGuard.Proofs.Hierarchy
/-! # Which failures a pair of lists retries

The lists of included and excluded types judge a failure link by link along its causes, and a link
by the types that its own type extends. `retries_iff_nearest` says what that search comes to: one
listed type decides, the one that is the fewest steps up from the first link that extends any, and
an exclusion beats an inclusion. A longer list turns the judgement only its own way, because a new
entry decides for itself or not at all; `lists_monotone` is built on that. -/

namespace CallGuard

variable {includes excludes listed : List FailureType}

/-- A rule that gives way to another one, or else always says the same. -/
theorem findSome?_overruled {α β : Type} {f g : α → Option β} {b : β}
    (h : ∀ x, g x = f x ∨ g x = some b) (xs : List α) :
    xs.findSome? g = xs.findSome? f ∨ xs.findSome? g = some b := by
  induction xs with
  | nil => exact .inl rfl
  | cons x xs ih =>
    rw [List.findSome?_cons, List.findSome?_cons]
    rcases h x with hx | hx
    · rw [hx]
      cases f x with
      | none => exact ih
      | some _ => exact .inl rfl
    · rw [hx]
      exact .inr rfl

/-! ## The listed type that decides -/

namespace FailureType

def nearest? (listed : List FailureType) (t : FailureType) : Option FailureType :=
  t.ancestors.find? (· ∈ listed)

/-- The first listed type on the way up is the one with the fewest steps to it. -/
theorem nearest?_eq_some {t a : FailureType} :
    t.nearest? listed = some a ↔ t.Nearest listed a := by
  unfold nearest?
  rw [List.find?_eq_some_iff_getElem, decide_eq_true_iff]
  constructor
  · rintro ⟨hmem, d, hd, heq, hbefore⟩
    refine ⟨hmem, d, ?_, fun b hb e he => Nat.le_of_not_lt fun hlt => ?_⟩
    · rw [← getElem?_ancestors, List.getElem?_eq_getElem hd, heq]
    · rw [← getElem?_ancestors] at he
      obtain ⟨_, rfl⟩ := List.getElem?_eq_some_iff.mp he
      simpa [hb] using hbefore e hlt
  · rintro ⟨hmem, d, hd, hleast⟩
    rw [← getElem?_ancestors] at hd
    obtain ⟨hlen, heq⟩ := List.getElem?_eq_some_iff.mp hd
    refine ⟨hmem, d, hlen, heq, fun e he => ?_⟩
    have hup : up e t = some t.ancestors[e] := by
      rw [← getElem?_ancestors, List.getElem?_eq_getElem]
    have hnot : t.ancestors[e] ∉ listed := fun hlisted =>
      Nat.not_le_of_lt he (hleast _ hlisted e hup)
    simp [hnot]

theorem nearest?_eq_none {t : FailureType} : t.nearest? listed = none ↔ t.Unlisted listed := by
  unfold nearest? Unlisted
  simp only [List.find?_eq_none, decide_eq_true_eq, mem_ancestors]
  exact ⟨fun h a ha d hd => h a ⟨d, hd⟩ ha, fun h a ⟨d, hd⟩ ha => h a ha d hd⟩

end FailureType

namespace Failure

/-- The listed type is the nearest one to the first link of the chain that has any. -/
def DecidedBy (listed : List FailureType) (f : Failure) (a : FailureType) : Prop :=
  ∃ before link after, f.chain = before ++ link :: after ∧
    (∀ l ∈ before, l.kind.Unlisted listed) ∧ link.kind.Nearest listed a

def decisive? (listed : List FailureType) (f : Failure) : Option FailureType :=
  f.chain.findSome? (·.kind.nearest? listed)

theorem decisive?_eq_some {f : Failure} {a : FailureType} :
    f.decisive? listed = some a ↔ f.DecidedBy listed a := by
  unfold decisive? DecidedBy
  simp only [List.findSome?_eq_some_iff, FailureType.nearest?_eq_some, FailureType.nearest?_eq_none]
  constructor
  · rintro ⟨before, link, after, hchain, hnearest, hbefore⟩
    exact ⟨before, link, after, hchain, hbefore, hnearest⟩
  · rintro ⟨before, link, after, hchain, hbefore, hnearest⟩
    exact ⟨before, link, after, hchain, hnearest, hbefore⟩

theorem decisive?_eq_none {f : Failure} :
    f.decisive? listed = none ↔ ∀ l ∈ f.chain, l.kind.Unlisted listed := by
  unfold decisive?
  simp only [List.findSome?_eq_none_iff, FailureType.nearest?_eq_none]

theorem DecidedBy.unique {f : Failure} {a b : FailureType} (h : f.DecidedBy listed a)
    (h' : f.DecidedBy listed b) : a = b :=
  Option.some.inj ((decisive?_eq_some.mpr h).symm.trans (decisive?_eq_some.mpr h'))

end Failure

/-! ## What a classifier of two lists does -/

namespace Classifier

theorem find?_marked (ts : List FailureType) (b : Bool) (t : FailureType) :
    (ts.map (·, b)).reverse.find? (·.1 = t) = if t ∈ ts then some (t, b) else none := by
  induction ts with
  | nil => rfl
  | cons a as ih =>
    rw [List.map_cons, List.reverse_cons, List.find?_append, ih]
    by_cases has : t ∈ as
    · simp [has]
    · by_cases ha : a = t <;> simp [has, ha, eq_comm (a := t)]

/-- An exclusion comes after all inclusions, so it is the entry that counts. -/
theorem entry?_ofLists (includes excludes : List FailureType) (t : FailureType) :
    entry? (ofLists includes excludes) t =
      if t ∈ excludes then some false else if t ∈ includes then some true else none := by
  unfold entry? ofLists
  rw [List.reverse_append, List.find?_append, find?_marked, find?_marked]
  by_cases he : t ∈ excludes <;> by_cases hi : t ∈ includes <;> simp [he, hi]

theorem lookup?_ofLists (includes excludes : List FailureType) (t : FailureType) :
    (ofLists includes excludes).lookup? t =
      (t.nearest? (includes ++ excludes)).map (decide <| · ∉ excludes) := by
  unfold lookup? FailureType.nearest?
  induction t.ancestors with
  | nil => rfl
  | cons a as ih =>
    rw [List.findSome?_cons, List.find?_cons, entry?_ofLists, ih]
    by_cases he : a ∈ excludes <;> by_cases hi : a ∈ includes <;> simp [he, hi]

/-- The decisive type is the judgement: a failure is retried unless that type is excluded. -/
theorem retries_ofLists (includes excludes : List FailureType) (f : Failure) :
    (ofLists includes excludes).retries f =
      ((f.decisive? (includes ++ excludes)).map (decide <| · ∉ excludes)).getD
        includes.isEmpty := by
  unfold retries Failure.decisive?
  rw [List.map_findSome?]
  simp only [lookup?_ofLists]
  rfl

/-- Retrying everything is what empty lists come to. -/
theorem retries_retryAll (f : Failure) : retryAll.retries f = (ofLists [] []).retries f := by
  have hlookup : retryAll.lookup? f.kind = none := List.findSome?_eq_none_iff.mpr fun _ _ => rfl
  have hnone : f.decisive? [] = none := Failure.decisive?_eq_none.mpr fun _ _ _ h => nomatch h
  rw [retries_ofLists, List.nil_append, hnone]
  change ([f.toLink].findSome? fun l => retryAll.lookup? l.kind).getD true = true
  rw [List.findSome?_cons, hlookup]
  rfl

/-- Where every entry gives way to one and the same judgement or stays, so does the outcome. -/
theorem retries_overruled {c c' : Classifier} {b : Bool}
    (hentry : ∀ t, c'.entry? t = c.entry? t ∨ c'.entry? t = some b)
    (hcauses : c'.throughCauses = c.throughCauses) (hfallback : c'.fallback = c.fallback)
    (f : Failure) :
    c'.retries f = c.retries f ∨ c'.retries f = b := by
  have hlookup (l : Link) : c'.lookup? l.kind = c.lookup? l.kind ∨ c'.lookup? l.kind = some b :=
    findSome?_overruled hentry l.kind.ancestors
  unfold retries
  rw [hcauses, hfallback]
  rcases findSome?_overruled hlookup (if c.throughCauses then f.chain else [f.toLink]) with h | h
  · exact .inl (congrArg (·.getD c.fallback) h)
  · exact .inr (congrArg (·.getD c.fallback) h)

/-- What is not retried stays so when more is excluded. -/
theorem retries_of_excludes_subset {more : List FailureType} (h : excludes ⊆ more) {f : Failure}
    (hno : (ofLists includes excludes).retries f = false) :
    (ofLists includes more).retries f = false := by
  have hentry (t : FailureType) :
      entry? (ofLists includes more) t = entry? (ofLists includes excludes) t ∨
        entry? (ofLists includes more) t = some false := by
    rw [entry?_ofLists, entry?_ofLists]
    by_cases hmore : t ∈ more
    · exact .inr (if_pos hmore)
    · exact .inl (by rw [if_neg hmore, if_neg fun ht => hmore (h ht)])
  rcases retries_overruled hentry rfl rfl f with hsame | hfalse
  · exact hsame.trans hno
  · exact hfalse

/-- What is retried stays so when more is included; the first inclusion of all is another matter,
since it takes the judgement of everything else with it. -/
theorem retries_of_includes_subset {more : List FailureType} (h : includes ⊆ more)
    (hsome : includes ≠ []) {f : Failure} (hyes : (ofLists includes excludes).retries f = true) :
    (ofLists more excludes).retries f = true := by
  have hentry (t : FailureType) :
      entry? (ofLists more excludes) t = entry? (ofLists includes excludes) t ∨
        entry? (ofLists more excludes) t = some true := by
    rw [entry?_ofLists, entry?_ofLists]
    by_cases hmore : t ∈ more
    · by_cases ht : t ∈ excludes
      · exact .inl (by rw [if_pos ht, if_pos ht])
      · exact .inr (by rw [if_neg ht, if_pos hmore])
    · exact .inl (by rw [if_neg hmore, if_neg fun ht => hmore (h ht)])
  have hfallback : (ofLists more excludes).fallback = (ofLists includes excludes).fallback := by
    have hmore : more ≠ [] := by
      rintro rfl
      exact hsome (List.subset_nil.mp h)
    exact (List.isEmpty_eq_false_iff.mpr hmore).trans (List.isEmpty_eq_false_iff.mpr hsome).symm
  rcases retries_overruled hentry rfl hfallback f with hsame | htrue
  · exact hsame.trans hyes
  · exact htrue

end Classifier

namespace AttemptLimit

/-- A limit made from lists judges as the classifier of these lists does, empty ones included. -/
theorem retries_of_ofLists {limit : Nat} {p : AttemptLimit}
    (hp : AttemptLimit.ofLists limit includes excludes = .ok p) (f : Failure) :
    p.retries f = (Classifier.ofLists includes excludes).retries f := by
  unfold ofLists make at hp
  split at hp
  · cases hp
    unfold AttemptLimit.retries
    dsimp only
    split
    · next hempty =>
      obtain ⟨hi, he⟩ := Bool.and_eq_true_iff.mp hempty
      rw [List.isEmpty_iff.mp hi, List.isEmpty_iff.mp he]
      exact Classifier.retries_retryAll f
    · rfl
  · cases hp

/-- **A failure is judged by the nearest listed type.** It is retried if the one type that decides
is not excluded, or if no type decides and none is included. Where neither list has an entry, the
limit does not look at causes, which comes to the same. -/
theorem retries_iff_nearest {limit : Nat} {p : AttemptLimit}
    (hp : AttemptLimit.ofLists limit includes excludes = .ok p) (f : Failure) :
    (p.retries f = true ↔
      (∃ a, f.DecidedBy (includes ++ excludes) a ∧ a ∉ excludes) ∨
        (∀ l ∈ f.chain, l.kind.Unlisted (includes ++ excludes)) ∧ includes = []) ∧
    (∀ a b, f.DecidedBy (includes ++ excludes) a → f.DecidedBy (includes ++ excludes) b → a = b) ∧
    Classifier.retryAll.retries f = (Classifier.ofLists [] []).retries f := by
  refine ⟨?_, fun _ _ => Failure.DecidedBy.unique, Classifier.retries_retryAll f⟩
  rw [p.retries_of_ofLists hp, Classifier.retries_ofLists]
  simp only [← Failure.decisive?_eq_some, ← Failure.decisive?_eq_none]
  cases f.decisive? (includes ++ excludes) with
  | none => simp [List.isEmpty_iff]
  | some a => simp

def io : FailureType := .root "io" "IoFailure"
def connect : FailureType := .sub "connect" "ConnectFailure" io
def refused : FailureType := .sub "refused" "RefusedFailure" connect
def parse : FailureType := .root "parse" "ParseFailure"

/-- Nothing is said about the outer link, and of the two types that are listed the cause is nearer
to `connect`. -/
def wrapped : Failure := ⟨⟨parse, "bad answer"⟩, [⟨refused, "port closed"⟩]⟩

/-- The list with `connect` in it has its way, whichever of the two it is. -/
theorem retries_iff_nearest_wrapped :
    (∃ p, ofLists 3 [io] [connect] = .ok p ∧ p.retries wrapped = false) ∧
      ∃ p, ofLists 3 [connect] [io] = .ok p ∧ p.retries wrapped = true := by
  have hexcluded : wrapped.DecidedBy ([io] ++ [connect]) connect :=
    Failure.decisive?_eq_some.mp rfl
  have hincluded : wrapped.DecidedBy ([connect] ++ [io]) connect :=
    Failure.decisive?_eq_some.mp rfl
  constructor
  · obtain ⟨hiff, hunique, -⟩ :=
      retries_iff_nearest (rfl : ofLists 3 [io] [connect] = .ok _) wrapped
    refine ⟨_, rfl, Bool.eq_false_iff.mpr fun hretries => ?_⟩
    rcases hiff.mp hretries with ⟨a, ha, hnot⟩ | ⟨-, hempty⟩
    · rw [hunique a connect ha hexcluded] at hnot
      exact hnot (List.mem_singleton_self connect)
    · exact List.cons_ne_nil _ _ hempty
  · obtain ⟨hiff, -⟩ := retries_iff_nearest (rfl : ofLists 3 [connect] [io] = .ok _) wrapped
    exact ⟨_, rfl, hiff.mpr (.inl ⟨connect, hincluded, by decide⟩)⟩

/-- **Each list turns the judgement its own way.** One more excluded type, wherever it is put in,
makes no failure retried that was not; one more included type, where there are some already, leaves
no failure aside that was retried. -/
theorem lists_monotone (limit : Nat) (before after others : List FailureType) (t : FailureType)
    (f : Failure) :
    (∀ p q, ofLists limit others (before ++ after) = .ok p →
      ofLists limit others (before ++ t :: after) = .ok q →
      p.retries f = false → q.retries f = false) ∧
    (before ++ after ≠ [] → ∀ p q, ofLists limit (before ++ after) others = .ok p →
      ofLists limit (before ++ t :: after) others = .ok q →
      p.retries f = true → q.retries f = true) := by
  have hsub : before ++ after ⊆ before ++ t :: after := by
    intro a ha
    rcases List.mem_append.mp ha with ha | ha <;> simp [ha]
  refine ⟨fun p q hp hq hno => ?_, fun hsome p q hp hq hyes => ?_⟩
  · rw [retries_of_ofLists hp] at hno
    rw [retries_of_ofLists hq]
    exact Classifier.retries_of_excludes_subset hsub hno
  · rw [retries_of_ofLists hp] at hyes
    rw [retries_of_ofLists hq]
    exact Classifier.retries_of_includes_subset hsub hsome hyes

/-- As `wrapped`, with a cause that only the farther of the two types covers. -/
def disconnected : Failure := ⟨⟨parse, "bad answer"⟩, [⟨connect, "no route"⟩]⟩

/-- Either new type stops the search at the outer link, which was passed before. -/
theorem lists_monotone_wrapped :
    ∃ p q q', ofLists 3 [refused] [io] = .ok p ∧ ofLists 3 [refused] [parse, io] = .ok q ∧
      ofLists 3 [refused, parse] [io] = .ok q' ∧
      (p.retries disconnected = false ∧ q.retries disconnected = false) ∧
      p.retries wrapped = true ∧ q'.retries wrapped = true :=
  ⟨_, _, _, rfl, rfl, rfl,
    ⟨rfl, (lists_monotone 3 [] [io] [refused] parse disconnected).1 _ _ rfl rfl rfl⟩,
    rfl, (lists_monotone 3 [refused] [] [io] parse wrapped).2 (by decide) _ _ rfl rfl rfl⟩

/-- The first included type sets aside what it does not cover. -/
example : (ofLists 3 [] []).map (·.retries wrapped) = .ok true ∧
    (ofLists 3 [io] [refused]).map (·.retries wrapped) = .ok false := ⟨by rfl, by rfl⟩

end AttemptLimit

end CallGuard
