import Mathlib.Data.List.Chain
import Mathlib.Data.List.Induction
import Mathlib.Data.List.Perm.Basic
import CallGuard.Proofs.Recovery.Choice
/-! # Which handlers a type sees

The handlers that a type sees can be read off the declarations, whatever their order and whatever
cycles the parents form. `WayUp` says which types are met on the way up from a type: they are all
different, each but the first is the parent of the one before, and the way stops only where there is
no parent or where the parent has been met. There is exactly one such way, the walk takes it to the
end, and the handlers seen are those declared on its types, type by type and each once. -/

namespace CallGuard

/-! ## The way up -/

/-- The names met on the way up from a name, nearest first, until there is no parent or the parent
has been met. -/
structure WayUp (parent? : String → Option String) (name : String) (names : List String) :
    Prop where
  starts : names.head? = some name
  climbs : names.IsChain fun child parent => parent? child = some parent
  distinct : names.Nodup
  stops : ∀ last ∈ names.getLast?, ∀ parent, parent? last = some parent → parent ∈ names

namespace WayUp

variable {parent? : String → Option String} {name : String} {names others : List String}

/-- Of two climbs from one name, one goes on where the other ends. -/
theorem climbs_agree (h : names.IsChain fun child parent => parent? child = some parent)
    (h' : others.IsChain fun child parent => parent? child = some parent)
    (hstart : names.head? = others.head?) : names <+: others ∨ others <+: names := by
  induction names generalizing others with
  | nil => exact .inl List.nil_prefix
  | cons a names ih =>
    cases others with
    | nil => cases hstart
    | cons b others =>
      obtain rfl : a = b := Option.some.inj hstart
      simp only [List.prefix_cons_inj]
      rw [List.isChain_cons] at h h'
      cases names with
      | nil => exact .inl List.nil_prefix
      | cons c names =>
        cases others with
        | nil => exact .inr List.nil_prefix
        | cons d others => exact ih h.2 h'.2 ((h.1 c rfl).symm.trans (h'.1 d rfl))

/-- A way up that has stopped does not go on. -/
theorem eq_of_begins (h : WayUp parent? name names) (h' : WayUp parent? name others)
    (hbegins : names <+: others) : others = names := by
  obtain ⟨rest, rfl⟩ := hbegins
  cases rest with
  | nil => exact List.append_nil names
  | cons next rest =>
    obtain ⟨last, hlast⟩ : ∃ last, names.getLast? = some last := by
      rw [← Option.isSome_iff_exists, List.getLast?_isSome]
      rintro rfl
      cases h.starts
    have hnext : parent? last = some next :=
      (List.isChain_append.mp h'.climbs).2.2 last hlast next rfl
    have hmet := h.stops last hlast next hnext
    exact absurd rfl ((List.nodup_append.mp h'.distinct).2.2 next hmet next (.head _))

theorem unique (h : WayUp parent? name names) (h' : WayUp parent? name others) :
    others = names := by
  rcases climbs_agree h.climbs h'.climbs (h.starts.trans h'.starts.symm) with hp | hp
  · exact eq_of_begins h h' hp
  · exact (eq_of_begins h' h hp).symm

end WayUp

namespace HandlerTable

variable {t : HandlerTable}

/-- A walk meets nothing twice, and nothing that was seen before it. -/
theorem walk_fresh (t : HandlerTable) (fuel : Nat) (seen : List String) (name : String) :
    (t.walk fuel seen name).Nodup ∧ ∀ n ∈ t.walk fuel seen name, n ∉ seen := by
  induction fuel generalizing seen name with
  | zero => exact ⟨List.nodup_nil, List.forall_mem_nil _⟩
  | succ fuel ih =>
    by_cases hmem : name ∈ seen
    · rw [walk, if_pos (by simpa using hmem)]
      exact ⟨List.nodup_nil, List.forall_mem_nil _⟩
    · rw [walk_cons hmem, List.nodup_cons, List.forall_mem_cons]
      cases hparent : t.parents.get? name with
      | none => exact ⟨⟨List.not_mem_nil, List.nodup_nil⟩, hmem, List.forall_mem_nil _⟩
      | some parent =>
        obtain ⟨hnodup, hapart⟩ := ih (name :: seen) parent
        exact ⟨⟨fun hname => hapart name hname (.head _), hnodup⟩, hmem,
          fun n hn hseen => hapart n hn (.tail _ hseen)⟩

/-- **The lineage is the way up**: the fuel of the walk never ends it. -/
theorem lineage_wayUp (t : HandlerTable) (name : String) :
    WayUp t.parents.get? name (t.lineage name) where
  starts := by
    rw [lineage, walk_cons List.not_mem_nil]
    rfl
  climbs := by
    rw [List.isChain_iff_getElem]
    intro i hi
    have hchild := ancestor?_of_lineage (List.getElem?_eq_getElem (Nat.lt_of_succ_lt hi))
    have hparent := ancestor?_of_lineage (List.getElem?_eq_getElem hi)
    rw [ancestor?, hchild] at hparent
    exact hparent
  distinct := (t.walk_fresh _ _ _).1
  stops := by
    intro last hlast parent hparent
    rw [Option.mem_def, List.getLast?_eq_getElem?] at hlast
    rcases walk_goes_on List.nodup_nil (List.forall_mem_nil _) (Nat.lt_succ_self _) hlast hparent
      with hnext | hmet | hnone
    · exact List.mem_of_getElem? hnext
    · exact List.mem_of_mem_take hmet
    · cases hnone

end HandlerTable

/-! ## Tables from declarations -/

/-- What can be declared about types: a handler on one, and a parent of one. -/
inductive HandlerDeclaration where
  | handler (typeName : String) (h : Handler)
  | inherits (child parent : String)

namespace HandlerDeclaration

/-- The handler that it declares on one of these types. -/
def handlerOn (names : List String) : HandlerDeclaration → Option Handler
  | handler typeName h => if typeName ∈ names then some h else none
  | inherits _ _ => none

/-- The parent that it declares of a type. -/
def parentOf (name : String) : HandlerDeclaration → Option String
  | handler _ _ => none
  | inherits child parent => if name = child then some parent else none

/-- The latest declared parent of a type. -/
def parent? (ds : List HandlerDeclaration) (name : String) : Option String :=
  (ds.filterMap (parentOf name)).getLast?

/-- The handlers declared on a type, in the order of declaration. -/
def handlersOn (ds : List HandlerDeclaration) (name : String) : List Handler :=
  ds.filterMap (handlerOn [name])

theorem handlersOn_concat (ds : List HandlerDeclaration) (d : HandlerDeclaration) (name : String) :
    handlersOn (ds ++ [d]) name = handlersOn ds name ++ (d.handlerOn [name]).toList := by
  unfold handlersOn
  cases h : d.handlerOn [name] <;> simp [h]

theorem parent?_concat (ds : List HandlerDeclaration) (d : HandlerDeclaration) (name : String) :
    parent? (ds ++ [d]) name = (d.parentOf name).or (parent? ds name) := by
  unfold parent?
  cases h : d.parentOf name <;> simp [h]

/-- A declaration is about one of different names if it is about exactly one of them. -/
theorem flatMap_handlerOn {names : List String} (hnames : names.Nodup) (d : HandlerDeclaration) :
    (names.flatMap fun name => (d.handlerOn [name]).toList) = (d.handlerOn names).toList := by
  cases d with
  | inherits child parent => simp [handlerOn]
  | handler typeName h =>
    induction names with
    | nil => simp [handlerOn]
    | cons name names ih =>
      obtain ⟨hname, hnames⟩ := List.nodup_cons.mp hnames
      rw [List.flatMap_cons, ih hnames]
      by_cases heq : typeName = name
      · simp [handlerOn, heq, hname]
      · simp [handlerOn, heq]

/-- Read type by type, the declarations on different types are those on any of them, each once. -/
theorem flatMap_handlersOn_perm {names : List String} (hnames : names.Nodup)
    (ds : List HandlerDeclaration) :
    (names.flatMap (handlersOn ds)).Perm (ds.filterMap (handlerOn names)) := by
  induction ds with
  | nil => simp [handlersOn]
  | cons d ds ih =>
    have hsplit (on : HandlerDeclaration → Option Handler) :
        (d :: ds).filterMap on = (on d).toList ++ ds.filterMap on := by
      cases h : on d <;> simp [h]
    have hcons : handlersOn (d :: ds) =
        fun name => (d.handlerOn [name]).toList ++ handlersOn ds name :=
      funext fun name => hsplit _
    rw [hcons, hsplit, ← flatMap_handlerOn hnames d]
    exact (List.flatMap_append_perm names _ _).symm.trans (ih.append_left _)

end HandlerDeclaration

open HandlerDeclaration

namespace HandlerTable

def enter (t : HandlerTable) : HandlerDeclaration → HandlerTable
  | .handler typeName h => t.declare typeName h
  | .inherits child parent => t.inherit child parent

def ofDeclarations (ds : List HandlerDeclaration) : HandlerTable := ds.foldl enter empty

/-- The table says of each type what the declarations say. -/
structure Reflects (ds : List HandlerDeclaration) (t : HandlerTable) : Prop where
  handlers : ∀ name, t.declared name = handlersOn ds name
  parents : ∀ name, t.parents.get? name = parent? ds name

variable {ds : List HandlerDeclaration} {t : HandlerTable}

/-- One more declaration adds a handler behind the others, or replaces a parent. -/
theorem Reflects.enter (h : Reflects ds t) (d : HandlerDeclaration) :
    Reflects (ds ++ [d]) (t.enter d) := by
  cases d with
  | handler typeName new =>
    refine ⟨fun name => ?_, fun name => ?_⟩
    · rw [handlersOn_concat, ← h.handlers]
      simp only [HandlerTable.enter, declare, declared, Dict.get?_insert]
      by_cases heq : name = typeName
      · simp [heq, handlerOn]
      · simp [heq, handlerOn, eq_comm (a := typeName)]
    · rw [parent?_concat]
      exact h.parents name
  | inherits child parent =>
    refine ⟨fun name => ?_, fun name => ?_⟩
    · rw [handlersOn_concat, ← h.handlers]
      exact (List.append_nil _).symm
    · rw [parent?_concat, ← h.parents]
      simp only [HandlerTable.enter, inherit, Dict.get?_insert, parentOf]
      split <;> rfl

theorem reflects_ofDeclarations (ds : List HandlerDeclaration) :
    Reflects ds (ofDeclarations ds) := by
  induction ds using List.reverseRecOn with
  | nil => exact ⟨fun _ => rfl, fun _ => rfl⟩
  | append_singleton ds d ih =>
    rw [ofDeclarations, List.foldl_append]
    exact ih.enter d

/-- **Which handlers a type sees.** There is exactly one way up from a type along the latest
declared parents. The type sees the handlers of the types on it, nearest type first and each type's
in the order of declaration, so each handler declared on one of these types once. -/
theorem visible_ofDeclarations (ds : List HandlerDeclaration) (name : String) :
    ∃ names, WayUp (parent? ds) name names ∧
      (∀ others, WayUp (parent? ds) name others → others = names) ∧
      (ofDeclarations ds).visible name = names.flatMap (handlersOn ds) ∧
      ((ofDeclarations ds).visible name).Perm (ds.filterMap (handlerOn names)) := by
  have hreflects := reflects_ofDeclarations ds
  have hway := (ofDeclarations ds).lineage_wayUp name
  rw [funext hreflects.parents] at hway
  have hseen : (ofDeclarations ds).visible name =
      ((ofDeclarations ds).lineage name).flatMap (handlersOn ds) := by
    rw [← funext hreflects.handlers]
    rfl
  refine ⟨_, hway, fun others => hway.unique, hseen, ?_⟩
  rw [hseen]
  exact flatMap_handlersOn_perm hway.distinct ds

/-- Two types that inherit from each other do not keep a third one from seeing both. -/
example : (ofDeclarations [.inherits "Stock" "Shop", .inherits "Shop" "Firm",
    .inherits "Firm" "Shop"]).lineage "Stock" = ["Stock", "Shop", "Firm"] := by
  decide

end HandlerTable

end CallGuard
