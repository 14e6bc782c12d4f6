import CallGuard.Failure
/-! # The order of failure types

A type extends at most one other, so what it is or extends lies on one way up from it. Distances
are counted along that way. Depth, the length of the way to its end, falls by one with every step,
so no two places on the way hold the same type, and a distance is the difference of two depths;
the laws of the order follow from these two facts. A family of declarations tells its types apart by
their ids, so in it a type is the same as another only if both are the same declaration. -/

namespace CallGuard

namespace FailureType

variable {t a b c : FailureType} {d e : Nat}

/-- The type that is so many steps up from a type. -/
def up : Nat → FailureType → Option FailureType
  | 0, t => some t
  | steps + 1, t => t.parent?.bind (up steps)

/-- How many types a type extends. -/
def depth : FailureType → Nat
  | root _ _ => 0
  | sub _ _ parent => parent.depth + 1

theorem up_add (d e : Nat) (t : FailureType) : up (d + e) t = (up d t).bind (up e) := by
  induction d generalizing t with
  | zero => rw [Nat.zero_add]; rfl
  | succ d ih =>
    rw [Nat.succ_add]
    cases h : t.parent? with
    | none => simp [up, h]
    | some parent => simp [up, h, ih]

theorem depth_of_up (h : up d t = some a) : t.depth = a.depth + d := by
  induction d generalizing t with
  | zero => cases h; rfl
  | succ d ih =>
    cases t with
    | root => cases h
    | sub id name parent =>
      have := ih (t := parent) h
      rw [depth]
      omega

/-- A type is at one place only on the way up. -/
theorem up_injective (h : up d t = some a) (h' : up e t = some a) : d = e := by
  have := depth_of_up h
  have := depth_of_up h'
  omega

/-! ## What is counted and searched -/

theorem getElem?_ancestors (t : FailureType) (d : Nat) : t.ancestors[d]? = up d t := by
  induction t generalizing d with
  | root id name => cases d <;> rfl
  | sub id name parent ih =>
    cases d with
    | zero => rfl
    | succ d => exact ih d

/-- A distance is a number of steps up. -/
theorem distanceTo_eq_some : t.distanceTo a = some d ↔ up d t = some a := by
  unfold distanceTo
  rw [← getElem?_ancestors, List.findIdx?_eq_some_iff_getElem, List.getElem?_eq_some_iff]
  constructor
  · rintro ⟨hd, heq, -⟩
    exact ⟨hd, eq_of_beq heq⟩
  · rintro ⟨hd, heq⟩
    refine ⟨hd, beq_iff_eq.mpr heq, fun j hj hbeq => ?_⟩
    have hat {i : Nat} (hi : i < t.ancestors.length) (h : t.ancestors[i] = a) :
        up i t = some a := by
      rw [← getElem?_ancestors, List.getElem?_eq_getElem hi, h]
    exact Nat.ne_of_lt hj (up_injective (hat (Nat.lt_trans hj hd) (eq_of_beq hbeq)) (hat hd heq))

theorem mem_ancestors : a ∈ t.ancestors ↔ ∃ d, up d t = some a := by
  rw [List.mem_iff_getElem?]
  simp only [getElem?_ancestors]

theorem isA_iff : t.isA a = true ↔ ∃ d, up d t = some a := by
  unfold isA
  rw [List.contains_iff_mem, mem_ancestors]

theorem isA_iff_distanceTo : t.isA a = true ↔ ∃ d, t.distanceTo a = some d := by
  simp only [isA_iff, distanceTo_eq_some]

/-! ## The order -/

theorem isA_refl (t : FailureType) : t.isA t = true := isA_iff.mpr ⟨0, rfl⟩

theorem distanceTo_eq_zero : t.distanceTo a = some 0 ↔ t = a := by
  rw [distanceTo_eq_some]
  exact Option.some_inj

/-- Distances along one way add up. -/
theorem distanceTo_add (h : a.distanceTo b = some d) (h' : b.distanceTo c = some e) :
    a.distanceTo c = some (d + e) := by
  rw [distanceTo_eq_some] at h h' ⊢
  rw [up_add, h]
  exact h'

theorem isA_trans (h : a.isA b = true) (h' : b.isA c = true) : a.isA c = true := by
  obtain ⟨d, hd⟩ := isA_iff_distanceTo.mp h
  obtain ⟨e, he⟩ := isA_iff_distanceTo.mp h'
  exact isA_iff_distanceTo.mpr ⟨d + e, distanceTo_add hd he⟩

theorem isA_antisymm (h : a.isA b = true) (h' : b.isA a = true) : a = b := by
  obtain ⟨d, hd⟩ := isA_iff.mp h
  obtain ⟨e, he⟩ := isA_iff.mp h'
  have := depth_of_up hd
  have := depth_of_up he
  obtain rfl : d = 0 := by omega
  exact Option.some.inj hd

/-- Of two types on one way up, the nearer one extends the other. -/
theorem isA_of_up_le (ha : up d t = some a) (hb : up e t = some b) (h : d ≤ e) :
    a.isA b = true := by
  rw [← Nat.add_sub_cancel' h, up_add, ha] at hb
  exact isA_iff.mpr ⟨e - d, hb⟩

theorem isA_total (ha : t.isA a = true) (hb : t.isA b = true) :
    a.isA b = true ∨ b.isA a = true := by
  obtain ⟨d, hd⟩ := isA_iff.mp ha
  obtain ⟨e, he⟩ := isA_iff.mp hb
  rcases Nat.le_total d e with h | h
  · exact .inl (isA_of_up_le hd he h)
  · exact .inr (isA_of_up_le he hd h)

/-! ## The nearest of some types -/

/-- Of the listed types that `t` is or extends, `a` is the fewest steps up from it. -/
structure Nearest (listed : List FailureType) (t a : FailureType) : Prop where
  mem : a ∈ listed
  least : ∃ d, up d t = some a ∧ ∀ b ∈ listed, ∀ e, up e t = some b → d ≤ e

/-- None of the listed types is on the way up from `t`. -/
def Unlisted (listed : List FailureType) (t : FailureType) : Prop :=
  ∀ a ∈ listed, ∀ d, up d t ≠ some a

/-- At most one listed type is the nearest. -/
theorem Nearest.unique {listed : List FailureType} (ha : t.Nearest listed a)
    (hb : t.Nearest listed b) : a = b := by
  obtain ⟨d, hd, hda⟩ := ha.least
  obtain ⟨e, he, heb⟩ := hb.least
  obtain rfl : d = e := Nat.le_antisymm (hda b hb.mem e he) (heb a ha.mem d hd)
  exact Option.some.inj (hd.symm.trans he)

end FailureType

/-! ## Families of declarations -/

/-- Failure types in the order in which they are declared. Each has an id of its own, whatever its
name, and extends at most a type declared before it. -/
structure Family (n : Nat) where
  type : Fin n → FailureType
  apart : ∀ i j, (type i).id = (type j).id → i = j
  before : ∀ i, ∀ parent ∈ (type i).parent?, ∃ j, j < i ∧ type j = parent

namespace Family

open FailureType

variable {n : Nat} (F : Family n)

/-- Types are the same if they are the same declaration. -/
theorem type_inj {i j : Fin n} : F.type i = F.type j ↔ i = j :=
  ⟨fun h => F.apart i j (congrArg FailureType.id h), congrArg F.type⟩

/-- What a type extends is declared in the family, and not after it. -/
theorem declared_of_up {d : Nat} {i : Fin n} {x : FailureType} (h : up d (F.type i) = some x) :
    ∃ j, j ≤ i ∧ F.type j = x := by
  induction d generalizing i with
  | zero => exact ⟨i, Fin.le_refl i, Option.some.inj h⟩
  | succ d ih =>
    obtain ⟨parent, hparent, hup⟩ := Option.bind_eq_some_iff.mp h
    obtain ⟨j, hji, rfl⟩ := F.before i parent hparent
    obtain ⟨k, hkj, hk⟩ := ih hup
    exact ⟨k, Fin.le_trans hkj (Fin.le_of_lt hji), hk⟩

/-- **The types of a family are partially ordered, and distances along the order add up.** One
type is another if and only if it has a distance from it, which is the number of steps up to it; a
type is itself, at distance 0 and no other type is; what is on the way from a type to a third one
splits the distance; and no two types are each other. The types that one type is are comparable, so
of any list only one of them is the nearest. All of this is about declarations, not names. -/
theorem partially_ordered (a b c t : Fin n) :
    (F.type a = F.type b ↔ a = b) ∧
    ((F.type a).isA (F.type b) = true ↔ ∃ d, (F.type a).distanceTo (F.type b) = some d) ∧
    (∀ x d, (F.type a).distanceTo x = some d ↔ up d (F.type a) = some x) ∧
    (F.type a).isA (F.type a) = true ∧
    ((F.type a).isA (F.type b) = true → (F.type b).isA (F.type c) = true →
      (F.type a).isA (F.type c) = true) ∧
    ((F.type a).isA (F.type b) = true → (F.type b).isA (F.type a) = true → a = b) ∧
    ((F.type a).distanceTo (F.type b) = some 0 ↔ a = b) ∧
    ((F.type a).isA (F.type b) = true → (F.type b).isA (F.type c) = true →
      ∃ d e, (F.type a).distanceTo (F.type b) = some d ∧
        (F.type b).distanceTo (F.type c) = some e ∧
        (F.type a).distanceTo (F.type c) = some (d + e)) ∧
    (∀ x, (F.type t).isA x = true → ∃ i, i ≤ t ∧ F.type i = x) ∧
    ((F.type t).isA (F.type a) = true → (F.type t).isA (F.type b) = true →
      (F.type a).isA (F.type b) = true ∨ (F.type b).isA (F.type a) = true) ∧
    ∀ listed x y, (F.type t).Nearest listed x → (F.type t).Nearest listed y → x = y := by
  refine ⟨F.type_inj, isA_iff_distanceTo, fun _ _ => distanceTo_eq_some, isA_refl _, isA_trans,
    fun hab hba => F.type_inj.mp (isA_antisymm hab hba), ?_, fun hab hbc => ?_, fun x hx => ?_,
    isA_total, fun listed x y => Nearest.unique⟩
  · rw [distanceTo_eq_zero, F.type_inj]
  · obtain ⟨d, hd⟩ := isA_iff_distanceTo.mp hab
    obtain ⟨e, he⟩ := isA_iff_distanceTo.mp hbc
    exact ⟨d, e, hd, he, distanceTo_add hd he⟩
  · obtain ⟨d, hd⟩ := isA_iff.mp hx
    exact F.declared_of_up hd

/-- Two types of one name, one of them with types that extend it. -/
def namesakes : Family 4 where
  type
    | 0 => .root "io" "IoFailure"
    | 1 => .sub "connect" "ConnectFailure" (.root "io" "IoFailure")
    | 2 =>
      .sub "refused" "RefusedFailure" (.sub "connect" "ConnectFailure" (.root "io" "IoFailure"))
    | 3 => .root "disk" "IoFailure"
  apart := by decide
  before := by decide

theorem partially_ordered_namesakes :
    (namesakes.type 2).isA (namesakes.type 1) = true ∧
      (namesakes.type 1).isA (namesakes.type 0) = true ∧
      (∃ d e, (namesakes.type 2).distanceTo (namesakes.type 1) = some d ∧
        (namesakes.type 1).distanceTo (namesakes.type 0) = some e ∧
        (namesakes.type 2).distanceTo (namesakes.type 0) = some (d + e)) ∧
      (namesakes.type 0).name = (namesakes.type 3).name ∧
      namesakes.type 0 ≠ namesakes.type 3 := by
  have h : (namesakes.type 2).isA (namesakes.type 1) = true := by decide
  have h' : (namesakes.type 1).isA (namesakes.type 0) = true := by decide
  obtain ⟨-, -, -, -, -, -, -, hsum, -⟩ := namesakes.partially_ordered 2 1 0 2
  obtain ⟨hsame, -⟩ := namesakes.partially_ordered 0 3 0 0
  exact ⟨h, h', hsum h h', rfl, fun heq => absurd (hsame.mp heq) (by decide)⟩

end Family

end CallGuard
