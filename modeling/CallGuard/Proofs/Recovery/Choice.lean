import Mathlib.Data.Prod.Lex
import Mathlib.Order.Bounds.Basic
import CallGuard.Proofs.Classification
import CallGuard.Proofs.Recovery.Lineage
import CallGuard.Recovery
/-! # Which handler recovers from a failure

A handler is found at a place: so many types up from the target's own, and so far down that type's
declarations. Places are compared by the steps up first. A cycle of parents gives one handler many
places, of which only the first counts. Among the handlers for a type that the failure's type is or
extends, the choice takes the fewest steps between the two and then the least place; a handler
for any failure is taken only when there is no such handler. `Recovers` says so about places alone,
and `locate_recovers` shows that the search through the visible handlers comes to the same. -/

namespace CallGuard

theorem flatMap_eq_append_cons {α β : Type} {f : α → List β} {xs : List α} {before after : List β}
    {b : β} (h : xs.flatMap f = before ++ b :: after) :
    ∃ g a i, xs[g]? = some a ∧ (f a)[i]? = some b ∧
      before = (xs.take g).flatMap f ++ (f a).take i := by
  induction xs generalizing before with
  | nil => simp at h
  | cons x xs ih =>
    rw [List.flatMap_cons, List.append_eq_append_iff] at h
    rcases h with ⟨rest, rfl, hrest⟩ | ⟨rest, hx, hrest⟩
    · obtain ⟨g, a, i, hg, hi, rfl⟩ := ih hrest
      exact ⟨g + 1, a, i, hg, hi, by simp⟩
    · cases rest with
      | nil =>
        obtain ⟨g, a, i, hg, hi, hbefore⟩ :=
          ih (show xs.flatMap f = [] ++ b :: after from hrest.symm)
        refine ⟨g + 1, a, i, hg, hi, ?_⟩
        rw [List.take_succ_cons, List.flatMap_cons, List.append_assoc, ← hbefore, hx]
        simp
      | cons c rest =>
        obtain ⟨rfl, -⟩ := List.cons.inj hrest
        exact ⟨0, x, before.length, rfl, by simp [hx], by simp [hx]⟩

/-! ## The choice from a list of handlers -/

namespace Handler

variable {handlers : List Handler} {f : Failure}

/-- How far the type that the handler is for is from the failure's type. -/
def distance? (h : Handler) (f : Failure) : Option Nat := h.kind.bind f.kind.distanceTo

theorem distance?_eq_some {h : Handler} {d : Nat} :
    h.distance? f = some d ↔ ∃ k, h.kind = some k ∧ f.kind.up d = some k := by
  unfold distance?
  simp only [Option.bind_eq_some_iff, FailureType.distanceTo_eq_some]

theorem typed_eq : typed handlers f = handlers.filterMap fun h => (h.distance? f).map (·, h) := by
  unfold typed distance?
  congr 1
  funext h
  cases h.kind <;> rfl

theorem mem_typed {h : Handler} {d : Nat} :
    (d, h) ∈ typed handlers f ↔ h ∈ handlers ∧ h.distance? f = some d := by
  rw [typed_eq, List.mem_filterMap]
  constructor
  · rintro ⟨h', hmem, hd⟩
    obtain ⟨d', hd', heq⟩ := Option.map_eq_some_iff.mp hd
    cases heq
    exact ⟨hmem, hd'⟩
  · rintro ⟨hmem, hd⟩
    exact ⟨h, hmem, by rw [hd]; rfl⟩

theorem nearest_eq_none {es : List (Nat × Handler)} (h : nearest es = none) : es = [] := by
  cases es with
  | nil => rfl
  | cons e es =>
    rw [nearest] at h
    split at h
    · cases h
    · split at h <;> cases h

/-- The nearest entry is below those before it and not above those after it. -/
theorem nearest_eq_some {es : List (Nat × Handler)} {e : Nat × Handler} (h : nearest es = some e) :
    ∃ before after, es = before ++ e :: after ∧
      (∀ x ∈ before, e.1 < x.1) ∧ ∀ x ∈ after, e.1 ≤ x.1 := by
  induction es generalizing e with
  | nil => cases h
  | cons x es ih =>
    rw [nearest] at h
    split at h
    · next hnone =>
      cases h
      exact ⟨[], [], by rw [nearest_eq_none hnone]; rfl, by simp, by simp⟩
    · next e' he' =>
      obtain ⟨before, after, rfl, hbefore, hafter⟩ := ih he'
      split at h
      · next hlt =>
        cases h
        exact ⟨x :: before, after, rfl, List.forall_mem_cons.mpr ⟨hlt, hbefore⟩, hafter⟩
      · next hle =>
        cases h
        have hle := Nat.le_of_not_lt hle
        refine ⟨[], before ++ e' :: after, rfl, by simp, fun y hy => ?_⟩
        rcases List.mem_append.mp hy with hy | hy
        · exact Nat.le_of_lt (Nat.lt_of_le_of_lt hle (hbefore y hy))
        · rcases List.mem_cons.mp hy with rfl | hy
          · exact hle
          · exact Nat.le_trans hle (hafter y hy)

/-- The first of the handlers whose type is as near as that of any. -/
structure FirstNearest (handlers : List Handler) (f : Failure) (d : Nat) (before : List Handler)
    (h : Handler) (after : List Handler) : Prop where
  split : handlers = before ++ h :: after
  distance : h.distance? f = some d
  before_lt : ∀ h' ∈ before, ∀ e, h'.distance? f = some e → d < e
  le : ∀ h' ∈ handlers, ∀ e, h'.distance? f = some e → d ≤ e

theorem firstNearest_of_nearest {h : Handler} {d : Nat}
    (hn : nearest (typed handlers f) = some (d, h)) :
    ∃ before after, FirstNearest handlers f d before h after := by
  obtain ⟨less, more, hsplit, hless, hmore⟩ := nearest_eq_some hn
  have hle : ∀ h' ∈ handlers, ∀ e, h'.distance? f = some e → d ≤ e := fun h' hmem e he => by
    have hentry : (e, h') ∈ less ++ (d, h) :: more := hsplit ▸ mem_typed.mpr ⟨hmem, he⟩
    rcases List.mem_append.mp hentry with hin | hin
    · exact Nat.le_of_lt (hless _ hin)
    · rcases List.mem_cons.mp hin with heq | hin
      · cases heq; exact Nat.le_refl _
      · exact hmore _ hin
  rw [typed_eq] at hsplit
  obtain ⟨before, rest, rfl, hbefore, hrest⟩ := List.filterMap_eq_append_iff.mp hsplit
  obtain ⟨skipped, h', after, rfl, hskipped, hh', -⟩ := List.filterMap_eq_cons_iff.mp hrest
  obtain ⟨d', hd', heq⟩ := Option.map_eq_some_iff.mp hh'
  cases heq
  refine ⟨before ++ skipped, after, by simp, hd', fun x hx e he => ?_, hle⟩
  rcases List.mem_append.mp hx with hx | hx
  · refine hless (e, x) ?_
    rw [← hbefore]
    exact List.mem_filterMap.mpr ⟨x, hx, by rw [he]; rfl⟩
  · have hnone := hskipped x hx
    rw [he] at hnone
    cases hnone

theorem distance?_none_of_nearest (hn : nearest (typed handlers f) = none) {h : Handler}
    (hmem : h ∈ handlers) : h.distance? f = none := by
  cases hd : h.distance? f with
  | none => rfl
  | some d =>
    have hentry := mem_typed.mpr ⟨hmem, hd⟩
    rw [nearest_eq_none hn] at hentry
    cases hentry

end Handler

/-! ## The places of the handlers that a type sees -/

namespace HandlerTable

/-- The steps up from a type, and a position among the declarations of the type there. -/
abbrev Place := ℕ ×ₗ ℕ

/-- The handlers declared on a type itself, in the order of declaration. -/
def declared (t : HandlerTable) (name : String) : List Handler := (t.handlers.get? name).getD []

def handlerAt? (t : HandlerTable) (name : String) (p : Place) : Option Handler :=
  (t.ancestor? name (ofLex p).1).bind fun a => (t.declared a)[(ofLex p).2]?

variable {t : HandlerTable} {name : String} {h : Handler}

theorem handlerAt?_eq_some {p : Place} : t.handlerAt? name p = some h ↔
    ∃ a, t.ancestor? name (ofLex p).1 = some a ∧ (t.declared a)[(ofLex p).2]? = some h :=
  Option.bind_eq_some_iff

/-- What stands at a place is seen, among the first types already if the place is that low. -/
theorem mem_of_handlerAt? {p : Place} (hp : t.handlerAt? name p = some h) {steps : Nat}
    (hsteps : (ofLex p).1 < steps) : h ∈ ((t.lineage name).take steps).flatMap t.declared := by
  obtain ⟨a, ha, hat⟩ := handlerAt?_eq_some.mp hp
  obtain ⟨first, hfirst, hmet⟩ := lineage_of_ancestor? ha
  have htake : ((t.lineage name).take steps)[first]? = some a := by
    rw [List.getElem?_take_of_lt (by omega)]
    exact hmet
  exact List.mem_flatMap.mpr ⟨a, List.mem_of_getElem? htake, List.mem_of_getElem? hat⟩

/-- A type sees what stands at its places, and nothing else. -/
theorem mem_visible : h ∈ t.visible name ↔ ∃ p, t.handlerAt? name p = some h := by
  constructor
  · intro hmem
    obtain ⟨a, ha, hat⟩ := List.mem_flatMap.mp hmem
    obtain ⟨steps, hsteps⟩ := List.mem_iff_getElem?.mp ha
    obtain ⟨i, hi⟩ := List.mem_iff_getElem?.mp hat
    exact ⟨toLex (steps, i), handlerAt?_eq_some.mpr ⟨a, ancestor?_of_lineage hsteps, hi⟩⟩
  · rintro ⟨p, hp⟩
    obtain ⟨a, ha, hat⟩ := List.mem_flatMap.mp (mem_of_handlerAt? hp (Nat.lt_succ_self _))
    exact List.mem_flatMap.mpr ⟨a, List.mem_of_mem_take ha, hat⟩

/-- Each handler that a type sees stands at a place with none but the earlier ones below it. -/
theorem place_of_visible {before after : List Handler}
    (hsplit : t.visible name = before ++ h :: after) :
    ∃ p, t.handlerAt? name p = some h ∧
      ∀ p' < p, ∀ h', t.handlerAt? name p' = some h' → h' ∈ before := by
  obtain ⟨steps, a, i, hsteps, hi, rfl⟩ := flatMap_eq_append_cons hsplit
  refine ⟨toLex (steps, i), handlerAt?_eq_some.mpr ⟨a, ancestor?_of_lineage hsteps, hi⟩,
    fun p' hlt h' hp' => ?_⟩
  rcases Prod.Lex.lt_iff.mp hlt with hlower | ⟨hsame, hearlier⟩
  · exact List.mem_append_left _ (mem_of_handlerAt? hp' hlower)
  · obtain ⟨a', ha', hat⟩ := handlerAt?_eq_some.mp hp'
    rw [hsame] at ha'
    obtain rfl : a = a' := Option.some.inj ((ancestor?_of_lineage hsteps).symm.trans ha')
    have htake : ((t.declared a).take i)[(ofLex p').2]? = some h' := by
      rw [List.getElem?_take_of_lt (show (ofLex p').2 < i from hearlier)]
      exact hat
    exact List.mem_append_right _ (List.mem_of_getElem? htake)

/-! ## The choice by places -/

variable (t name) in
/-- The places of the handlers for a type that the failure's type is or extends, each behind the
steps up from the failure's type to that one. -/
def typedPlaces (f : Failure) : Set (ℕ ×ₗ Place) :=
  {q | ∃ h k, t.handlerAt? name (ofLex q).2 = some h ∧ h.kind = some k ∧
    f.kind.up (ofLex q).1 = some k}

variable (t name) in
/-- The places of the handlers for any failure. -/
def untypedPlaces : Set Place := {p | ∃ h, t.handlerAt? name p = some h ∧ h.kind = none}

variable (t name) in
/-- What a call on a target of a type comes to when it recovers from a failure, and what that
reports. -/
inductive Recovers (m : Method) (arguments : List Json) (f : Failure) :
    Except Failure Json × List Event → Prop
  | nearest {q : ℕ ×ₗ Place} {h : Handler} (least : IsLeast (t.typedPlaces name f) q)
      (handler : t.handlerAt? name (ofLex q).2 = some h) :
      Recovers m arguments f (h.recover arguments f, [.recovering m h.name])
  | untyped {p : Place} {h : Handler} (typed : t.typedPlaces name f = ∅)
      (least : IsLeast (t.untypedPlaces name) p) (handler : t.handlerAt? name p = some h) :
      Recovers m arguments f (h.recover arguments f, [.recovering m h.name])
  | unmatched (typed : t.typedPlaces name f = ∅) (untyped : t.untypedPlaces name = ∅) :
      Recovers m arguments f (.error f, [])

variable {m : Method} {arguments : List Json} {f : Failure}
  {o o' : Except Failure Json × List Event}

theorem Recovers.unique (ho : t.Recovers name m arguments f o)
    (ho' : t.Recovers name m arguments f o') : o = o' := by
  cases ho with
  | nearest least handler =>
    cases ho' with
    | nearest least' handler' =>
      obtain rfl := least.unique least'
      obtain rfl := Option.some.inj (handler.symm.trans handler')
      rfl
    | untyped typed' => exact (typed' ▸ least.1).elim
    | unmatched typed' => exact (typed' ▸ least.1).elim
  | untyped typed least handler =>
    cases ho' with
    | nearest least' => exact (typed ▸ least'.1).elim
    | untyped _ least' handler' =>
      obtain rfl := least.unique least'
      obtain rfl := Option.some.inj (handler.symm.trans handler')
      rfl
    | unmatched _ untyped' => exact (untyped' ▸ least.1).elim
  | unmatched typed untyped =>
    cases ho' with
    | nearest least' => exact (typed ▸ least'.1).elim
    | untyped _ least' => exact (untyped ▸ least'.1).elim
    | unmatched => rfl

theorem isLeast_typedPlaces {d : Nat} {before after : List Handler}
    (hn : Handler.FirstNearest (t.visible name) f d before h after) :
    ∃ p, IsLeast (t.typedPlaces name f) (toLex (d, p)) ∧ t.handlerAt? name p = some h := by
  obtain ⟨p, hp, hbelow⟩ := place_of_visible hn.split
  obtain ⟨k, hk, hd⟩ := Handler.distance?_eq_some.mp hn.distance
  refine ⟨p, ⟨⟨h, k, hp, hk, hd⟩, ?_⟩, hp⟩
  rintro q ⟨h', k', hp', hk', hd'⟩
  have hdistance := Handler.distance?_eq_some.mpr ⟨k', hk', hd'⟩
  rcases lt_or_ge (ofLex q).2 p with hlt | hge
  · exact Prod.Lex.le_iff.mpr (.inl (hn.before_lt h' (hbelow _ hlt h' hp') _ hdistance))
  · have hle := hn.le h' (mem_visible.mpr ⟨_, hp'⟩) _ hdistance
    exact Prod.Lex.le_iff'.mpr ⟨hle, fun _ => hge⟩

theorem typedPlaces_eq_empty (hnone : Handler.nearest (Handler.typed (t.visible name) f) = none) :
    t.typedPlaces name f = ∅ := by
  refine Set.eq_empty_iff_forall_notMem.mpr ?_
  rintro q ⟨h, k, hp, hk, hd⟩
  have hdistance := Handler.distance?_none_of_nearest hnone (mem_visible.mpr ⟨_, hp⟩)
  rw [Handler.distance?_eq_some.mpr ⟨k, hk, hd⟩] at hdistance
  cases hdistance

/-- What the search through the visible handlers finds is told by the places. -/
theorem recovers_choose : t.Recovers name m arguments f
    (match Handler.choose (t.visible name) f with
      | some h => (h.recover arguments f, [.recovering m h.name])
      | none => (.error f, [])) := by
  unfold Handler.choose
  cases hn : Handler.nearest (Handler.typed (t.visible name) f) with
  | some e =>
    obtain ⟨before, after, hfirst⟩ := Handler.firstNearest_of_nearest (h := e.2) (d := e.1) hn
    obtain ⟨p, hleast, hp⟩ := isLeast_typedPlaces hfirst
    exact .nearest hleast hp
  | none =>
    have htyped := typedPlaces_eq_empty hn
    cases hfind : (t.visible name).find? (·.kind.isNone) with
    | some h =>
      obtain ⟨hkind, before, after, hsplit, hbefore⟩ := List.find?_eq_some_iff_append.mp hfind
      obtain ⟨p, hp, hbelow⟩ := place_of_visible hsplit
      refine .untyped htyped ⟨⟨h, hp, Option.isNone_iff_eq_none.mp hkind⟩, ?_⟩ hp
      rintro p' ⟨h', hp', hkind'⟩
      refine le_of_not_gt fun hlt => ?_
      simpa [hkind'] using hbefore h' (hbelow p' hlt h' hp')
    | none =>
      refine .unmatched htyped (Set.eq_empty_iff_forall_notMem.mpr ?_)
      rintro p ⟨h, hp, hkind⟩
      simpa [hkind] using List.find?_eq_none.mp hfind h (mem_visible.mpr ⟨p, hp⟩)

end HandlerTable

/-! ## The recovery of a target -/

/-- **What recovers the calls on a target.** A target that recovers by itself does so always, and no
declared handler runs. Another one has no recovery if its type sees no handler; else the recovery
runs the one handler that `Recovers` names, on the given arguments and failure, or gives the
failure back. -/
theorem Recoverer.locate_recovers (t : HandlerTable) (target : Target) (m : Method) :
    (∀ run, target.native = some run →
      ∃ r, (locate t.visible target m).1 = some r ∧
        ∀ arguments f, r.recover arguments f = (run arguments f, [])) ∧
    (target.native = none →
      ((locate t.visible target m).1 = none ↔ ∀ p, t.handlerAt? target.typeName p = none) ∧
      ∀ r, (locate t.visible target m).1 = some r → ∀ arguments f o,
        r.recover arguments f = o ↔ t.Recovers target.typeName m arguments f o) := by
  unfold locate
  refine ⟨fun run hrun => ?_, fun hnone => ?_⟩
  · rw [hrun]
    exact ⟨_, rfl, fun _ _ => rfl⟩
  · rw [hnone]
    cases hseen : t.visible target.typeName with
    | nil =>
      refine ⟨⟨fun _ p => ?_, fun _ => rfl⟩, fun r hr => by cases hr⟩
      refine Option.eq_none_iff_forall_ne_some.mpr fun h hp => ?_
      have hmem := HandlerTable.mem_visible.mpr ⟨p, hp⟩
      rw [hseen] at hmem
      cases hmem
    | cons h hs =>
      obtain ⟨p, hp⟩ := HandlerTable.mem_visible.mp (hseen ▸ List.mem_cons_self (a := h) (l := hs))
      refine ⟨⟨nofun, fun hno => absurd hp (by rw [hno p]; exact nofun)⟩, ?_⟩
      rintro r hr arguments f o
      cases hr
      have hrecovers : t.Recovers target.typeName m arguments f _ := HandlerTable.recovers_choose
      rw [hseen] at hrecovers
      exact ⟨fun ho => ho ▸ hrecovers, hrecovers.unique⟩

def outage : FailureType := .root "outage" "OutageFailure"

def timeout : FailureType := .sub "timeout" "TimeoutFailure" outage

def slowUpload : FailureType := .sub "slow-upload" "SlowUploadFailure" timeout

def timedOut : Failure := ⟨⟨slowUpload, "no answer"⟩, []⟩

/-- Orders and documents inherit from each other; only documents have a handler for timeouts. -/
def documents : HandlerTable where
  handlers := ⟨[
    ("Orders", [⟨"apologise", none, fun _ _ => .ok .null⟩, ⟨"queue", outage, fun _ f => .error f⟩]),
    ("Documents", [⟨"archived", timeout, fun _ _ => .ok (.str "archived")⟩])]⟩
  parents := ⟨[("Orders", "Documents"), ("Documents", "Orders")]⟩

def printing : Method := ⟨"Orders", "print", []⟩

/-- No handler is for slow uploads themselves. The one for timeouts, one step up, is the parent's
and wins over both of the type's own, unless the target recovers by itself. -/
theorem Recoverer.locate_recovers_documents :
    documents.Recovers "Orders" printing [.null] timedOut
      (.ok (.str "archived"), [.recovering printing "archived"]) ∧
    ∃ r, (locate documents.visible ⟨"Orders", some fun _ f => .error f⟩ printing).1 = some r ∧
      ∀ arguments f, r.recover arguments f = (.error f, []) :=
  ⟨(((locate_recovers documents ⟨"Orders", none⟩ printing).2 rfl).2 _ rfl [.null] timedOut _).mp rfl,
    (locate_recovers documents ⟨"Orders", some fun _ f => .error f⟩ printing).1 _ rfl⟩

end CallGuard
