import CallGuard.Proofs.Json.Quoting
/-! # The text of a value can be read in one way only

A text that begins with the text of a value without floating-point numbers begins with that of no
other such value, where the numbers end. The first character tells what kind of value it is; a
string ends at the first quote that no backslash escapes, a number at the first character that
belongs to none, and a list at its closing bracket, which begins no piece of it. Nothing is asked of
the order of an object's members, nor that their names differ. -/

namespace CallGuard.Json

/-- No number goes on in the text. -/
def Delimited (rest : List Char) : Prop := ∀ c ∈ rest.head?, numeric c = false

theorem Delimited.nil : Delimited [] := nofun

theorem Delimited.cons {c : Char} (h : numeric c = false) (cs : List Char) :
    Delimited (c :: cs) := by
  intro d hd
  cases hd
  exact h

/-! ## Strings -/

/-- The characters that are escaped. -/
def escaped : List Char := '"' :: '\\' :: (List.range 0x20).map Char.ofNat

theorem escapeChar_of_notMem {c : Char} (h : c ∉ escaped) : escapeChar c = [c] := by
  have hcontrol : 0x20 ≤ c.toNat := by
    refine Nat.le_of_not_lt fun hlt => h (.tail _ (.tail _ ?_))
    exact List.mem_map.mpr ⟨c.toNat, List.mem_range.mpr hlt, Char.ofNat_toNat c⟩
  have hquote : c ≠ '"' := fun heq => h (heq ▸ .head _)
  have hback : c ≠ '\\' := fun heq => h (heq ▸ .tail _ (.head _))
  rw [escapeChar, if_neg hquote, if_neg hback, if_pos hcontrol]

theorem escapeChar_head {c : Char} (h : c ∈ escaped) : ∃ cs, escapeChar c = '\\' :: cs := by
  have hall : (escaped.all fun c => (escapeChar c).head? == some '\\') = true := by decide +kernel
  have hhead := eq_of_beq (List.all_eq_true.mp hall c h)
  exact List.head?_eq_some_iff.mp hhead

/-- Escapes are told apart by what they begin with. -/
theorem escaped_prefix_free {c d : Char} (hc : c ∈ escaped) (hd : d ∈ escaped)
    (h : escapeChar c <+: escapeChar d) : c = d := by
  have hall : (escaped.all fun c => escaped.all fun d =>
      !(escapeChar c).isPrefixOf (escapeChar d) || c == d) = true := by decide +kernel
  have hpair := List.all_eq_true.mp (List.all_eq_true.mp hall c hc) d hd
  rw [List.isPrefixOf_iff_prefix.mpr h] at hpair
  exact eq_of_beq hpair

theorem escapeChar_unique {c d : Char} {rest rest' : List Char}
    (h : escapeChar c ++ rest = escapeChar d ++ rest') : c = d ∧ rest = rest' := by
  suffices heq : c = d by
    subst heq
    exact ⟨rfl, List.append_cancel_left h⟩
  by_cases hc : c ∈ escaped <;> by_cases hd : d ∈ escaped
  · rcases List.prefix_or_prefix_of_prefix ⟨rest, h⟩ ⟨rest', rfl⟩ with hpre | hpre
    · exact escaped_prefix_free hc hd hpre
    · exact (escaped_prefix_free hd hc hpre).symm
  · obtain ⟨cs, hcs⟩ := escapeChar_head hc
    rw [hcs, escapeChar_of_notMem hd] at h
    exact absurd ((List.cons.inj h).1 ▸ .tail _ (.head _)) hd
  · obtain ⟨ds, hds⟩ := escapeChar_head hd
    rw [hds, escapeChar_of_notMem hc] at h
    exact absurd ((List.cons.inj h).1 ▸ .tail _ (.head _)) hc
  · rw [escapeChar_of_notMem hc, escapeChar_of_notMem hd] at h
    exact (List.cons.inj h).1

/-- No character of a string is written as its end. -/
theorem escapeChar_ne_quote (c : Char) (rest rest' : List Char) :
    escapeChar c ++ rest ≠ '"' :: rest' := by
  intro h
  by_cases hc : c ∈ escaped
  · obtain ⟨cs, hcs⟩ := escapeChar_head hc
    rw [hcs] at h
    exact absurd (List.cons.inj h).1 (by decide)
  · rw [escapeChar_of_notMem hc] at h
    exact hc ((List.cons.inj h).1 ▸ .head _)

theorem quote_unique {cs ds rest rest' : List Char} (h : quote cs ++ rest = quote ds ++ rest') :
    cs = ds ∧ rest = rest' := by
  replace h : cs.flatMap escapeChar ++ '"' :: rest = ds.flatMap escapeChar ++ '"' :: rest' := by
    simpa [quote] using h
  induction cs generalizing ds with
  | nil =>
    cases ds with
    | nil => exact ⟨rfl, (List.cons.inj h).2⟩
    | cons d ds =>
      rw [List.flatMap_cons, List.append_assoc] at h
      exact absurd h.symm (escapeChar_ne_quote d _ _)
  | cons c cs ih =>
    rw [List.flatMap_cons, List.append_assoc] at h
    cases ds with
    | nil => exact absurd h (escapeChar_ne_quote c _ _)
    | cons d ds =>
      rw [List.flatMap_cons, List.append_assoc] at h
      obtain ⟨rfl, htail⟩ := escapeChar_unique h
      obtain ⟨rfl, hrest⟩ := ih htail
      exact ⟨rfl, hrest⟩

/-! ## Numbers -/

theorem toDigits_injective {m n : Nat} (h : Nat.toDigits 10 m = Nat.toDigits 10 n) : m = n := by
  have hread := congrArg (Nat.ofDigitChars 10 · 0) h
  simpa only [Nat.ofDigitChars_ten_toDigits] using hread

theorem toDigits_ne_minus (n : Nat) (cs : List Char) : Nat.toDigits 10 n ≠ '-' :: cs := by
  intro h
  have hmem : '-' ∈ Nat.toDigits 10 n := by rw [h]; exact .head _
  exact absurd (Nat.isDigit_of_mem_toDigits (by decide) (by decide) hmem) (by decide)

theorem intText_injective {m n : Int} (h : intText m = intText n) : m = n := by
  unfold intText at h
  split at h <;> split at h
  · have := toDigits_injective (List.cons.inj h).2
    omega
  · exact absurd h.symm (toDigits_ne_minus _ _)
  · exact absurd h (toDigits_ne_minus _ _)
  · have := toDigits_injective h
    omega

theorem takeWhile_append_delimited {cs rest : List Char} (hcs : ∀ c ∈ cs, numeric c = true)
    (hrest : Delimited rest) :
    (cs ++ rest).takeWhile numeric = cs ∧ (cs ++ rest).dropWhile numeric = rest := by
  rw [List.takeWhile_append_of_pos hcs, List.dropWhile_append_of_pos hcs]
  cases rest with
  | nil => exact ⟨List.append_nil cs, rfl⟩
  | cons c rest =>
    have hc : numeric c = false := hrest c rfl
    rw [List.takeWhile_cons_of_neg (by simp [hc]), List.dropWhile_cons_of_neg (by simp [hc])]
    exact ⟨List.append_nil cs, rfl⟩

/-- A number's text ends where the characters of numbers end. -/
theorem numberText_unique {m n : Number} {rest rest' : List Char} (hrest : Delimited rest)
    (hrest' : Delimited rest') (h : numberText m ++ rest = numberText n ++ rest') :
    numberText m = numberText n ∧ rest = rest' := by
  obtain ⟨htake, hdrop⟩ := takeWhile_append_delimited (numeric_numberText m) hrest
  obtain ⟨htake', hdrop'⟩ := takeWhile_append_delimited (numeric_numberText n) hrest'
  rw [h] at htake hdrop
  exact ⟨htake.symm.trans htake', hdrop.symm.trans hdrop'⟩

/-! ## Lists of pieces -/

/-- Pieces that end where a comma or the closing bracket follows, and do not begin with the bracket,
are told apart in a list of them. -/
theorem commaSeparated_unique {α : Type} {code : α → List Char} {close : Char}
    (hcomma : close ≠ ',') (hclose : numeric close = false) {valid : α → Prop}
    (hstart : ∀ x, valid x → ∀ rest rest', code x ++ rest ≠ close :: rest') {xs ys : List α}
    (hxs : ∀ x ∈ xs, valid x) (hys : ∀ y ∈ ys, valid y)
    (hcode : ∀ x ∈ xs, ∀ y, valid y → ∀ rest rest', Delimited rest → Delimited rest' →
      code x ++ rest = code y ++ rest' → x = y ∧ rest = rest') {rest rest' : List Char}
    (h : commaSeparated (xs.map code) ++ close :: rest =
      commaSeparated (ys.map code) ++ close :: rest') : xs = ys ∧ rest = rest' := by
  -- what follows the first piece
  have hsplit : ∀ (x : α) (xs : List α) (rest : List Char), ∃ tail, Delimited tail ∧
      commaSeparated ((x :: xs).map code) ++ close :: rest = code x ++ tail ∧
      ((xs = [] ∧ tail = close :: rest) ∨
        xs ≠ [] ∧ tail = ',' :: (commaSeparated (xs.map code) ++ close :: rest)) := by
    intro x xs rest
    cases xs with
    | nil => exact ⟨_, .cons hclose rest, rfl, .inl ⟨rfl, rfl⟩⟩
    | cons y xs =>
      refine ⟨_, .cons (by decide) _, ?_, .inr ⟨nofun, rfl⟩⟩
      simp [commaSeparated]
  induction xs generalizing ys with
  | nil =>
    cases ys with
    | nil => exact ⟨rfl, (List.cons.inj h).2⟩
    | cons y ys =>
      obtain ⟨tail, -, htail, -⟩ := hsplit y ys rest'
      rw [htail] at h
      exact absurd h.symm (hstart y (hys y (.head _)) _ _)
  | cons x xs ih =>
    obtain ⟨tail, hdelimited, htail, hmore⟩ := hsplit x xs rest
    rw [htail] at h
    cases ys with
    | nil => exact absurd h (hstart x (hxs x (.head _)) _ _)
    | cons y ys =>
      obtain ⟨tail', hdelimited', htail', hmore'⟩ := hsplit y ys rest'
      rw [htail'] at h
      obtain ⟨hx, hcode'⟩ := List.forall_mem_cons.mp hcode
      obtain ⟨hy, hys'⟩ := List.forall_mem_cons.mp hys
      obtain ⟨rfl, rfl⟩ := hx y hy _ _ hdelimited hdelimited' h
      rcases hmore with ⟨rfl, hlast⟩ | ⟨hne, hnext⟩ <;>
        rcases hmore' with ⟨rfl, hlast'⟩ | ⟨hne', hnext'⟩
      · rw [hlast] at hlast'
        exact ⟨rfl, (List.cons.inj hlast').2⟩
      · rw [hlast] at hnext'
        exact absurd (List.cons.inj hnext').1 hcomma
      · rw [hnext] at hlast'
        exact absurd (List.cons.inj hlast').1.symm hcomma
      · rw [hnext] at hnext'
        obtain ⟨rfl, hrest⟩ :=
          ih (List.forall_mem_cons.mp hxs).2 hys' hcode' (List.cons.inj hnext').2
        exact ⟨rfl, hrest⟩

/-! ## Values -/

mutual

/-- Whether no number in the value is a floating-point number. -/
def floatFree : Json → Bool
  | .num (.float _) => false
  | .arr items => floatFreeItems items
  | .obj members => floatFreeMembers members
  | _ => true

def floatFreeItems : List Json → Bool
  | [] => true
  | item :: rest => item.floatFree && floatFreeItems rest

def floatFreeMembers : List (String × Json) → Bool
  | [] => true
  | (_, value) :: rest => value.floatFree && floatFreeMembers rest

end

theorem floatFreeItems_iff {items : List Json} :
    floatFreeItems items = true ↔ ∀ item ∈ items, item.floatFree = true := by
  induction items with
  | nil => simp [floatFreeItems]
  | cons item rest ih => simp [floatFreeItems, ih]

theorem floatFreeMembers_iff {members : List (String × Json)} :
    floatFreeMembers members = true ↔ ∀ m ∈ members, m.2.floatFree = true := by
  induction members with
  | nil => simp [floatFreeMembers]
  | cons m rest ih => simp [floatFreeMembers, ih]

theorem renderItems_eq (items : List Json) : renderItems items = items.map render := by
  induction items with
  | nil => rfl
  | cons item rest ih => rw [renderItems, ih, List.map_cons]

def renderMember (m : String × Json) : List Char := quote m.1.toList ++ ':' :: m.2.render

theorem renderMember_ne_cons (m : String × Json) {c : Char} (hc : c ≠ '"')
    {rest rest' : List Char} : renderMember m ++ rest ≠ c :: rest' :=
  fun h => hc (List.cons.inj h).1.symm

theorem renderMembers_eq (members : List (String × Json)) :
    renderMembers members = members.map renderMember := by
  induction members with
  | nil => rfl
  | cons m rest ih => rw [renderMembers, ih, List.map_cons]; rfl

inductive Kind where
  | null
  | bool (b : Bool)
  | num
  | str
  | arr
  | obj
deriving DecidableEq

def kind : Json → Kind
  | .null => .null
  | .bool b => .bool b
  | .num _ => .num
  | .str _ => .str
  | .arr _ => .arr
  | .obj _ => .obj

/-- The kind of value that a text with this first character is the text of. -/
def kindOf (c : Char) : Option Kind :=
  if c = 'n' then some .null
  else if c = 't' then some (.bool true)
  else if c = 'f' then some (.bool false)
  else if c = '"' then some .str
  else if c = '[' then some .arr
  else if c = '\x7b' then some .obj
  else if numeric c then some .num
  else none

theorem kindOf_of_numeric {c : Char} (h : numeric c = true) : kindOf c = some .num := by
  have hne : ∀ d, numeric d = false → c ≠ d := by
    rintro d hd rfl
    rw [h] at hd
    cases hd
  simp only [kindOf, if_neg (hne 'n' rfl), if_neg (hne 't' rfl), if_neg (hne 'f' rfl),
    if_neg (hne '"' rfl), if_neg (hne '[' rfl), if_neg (hne '\x7b' rfl), if_pos h]

theorem intText_ne_nil (n : Int) : intText n ≠ [] := by
  unfold intText
  split
  · nofun
  · exact Nat.toDigits_ne_nil

/-- The first character of a text tells the kind of the value. -/
theorem kindOf_render {j : Json} (h : j.floatFree = true) :
    ∃ c cs, j.render = c :: cs ∧ kindOf c = some j.kind := by
  cases j with
  | null => exact ⟨_, _, rfl, rfl⟩
  | bool b => cases b <;> exact ⟨_, _, rfl, rfl⟩
  | str | arr | obj => exact ⟨_, _, rfl, rfl⟩
  | num n =>
    cases n with
    | float => cases h
    | int n =>
      obtain ⟨c, cs, hcs⟩ := List.exists_cons_of_ne_nil (intText_ne_nil n)
      refine ⟨c, cs, hcs, kindOf_of_numeric (numeric_numberText (.int n) c ?_)⟩
      change c ∈ intText n
      rw [hcs]
      exact .head _

variable {j j' : Json} {rest rest' : List Char}

theorem render_ne_cons (h : j.floatFree = true) {c : Char} (hc : kindOf c = none) :
    j.render ++ rest ≠ c :: rest' := by
  obtain ⟨d, cs, hcs, hd⟩ := kindOf_render h
  rw [hcs]
  intro heq
  rw [(List.cons.inj heq).1, hc] at hd
  cases hd

theorem kind_eq (h : j.floatFree = true) (h' : j'.floatFree = true)
    (heq : j.render ++ rest = j'.render ++ rest') : j.kind = j'.kind := by
  obtain ⟨c, cs, hcs, hc⟩ := kindOf_render h
  obtain ⟨d, ds, hds, hd⟩ := kindOf_render h'
  rw [hcs, hds] at heq
  obtain ⟨rfl, -⟩ := List.cons.inj heq
  exact Option.some.inj (hc.symm.trans hd)

/-- A text that begins with the text of the value begins with that of no other one. -/
def ReadOnce (j : Json) : Prop :=
  ∀ j', j'.floatFree = true → ∀ rest rest', Delimited rest → Delimited rest' →
    j.render ++ rest = j'.render ++ rest' → j = j' ∧ rest = rest'

theorem readOnce_word (h : j.floatFree = true) (hword : ∀ j', j.kind = j'.kind → j = j') :
    ReadOnce j := by
  intro j' h' rest rest' _ _ heq
  obtain rfl := hword j' (kind_eq h h' heq)
  exact ⟨rfl, List.append_cancel_left heq⟩

theorem readOnce_int (n : Int) : ReadOnce (.num (.int n)) := by
  intro j' h' rest rest' hrest hrest' heq
  match j', h', kind_eq (j := .num (.int n)) rfl h' heq with
  | .num (.int n'), _, _ =>
    obtain ⟨htext, hrests⟩ : numberText (.int n) = numberText (.int n') ∧ rest = rest' :=
      numberText_unique hrest hrest' heq
    rw [intText_injective htext]
    exact ⟨rfl, hrests⟩

theorem readOnce_str (s : String) : ReadOnce (.str s) := by
  intro j' h' rest rest' _ _ heq
  match j', kind_eq (j := .str s) rfl h' heq with
  | .str s', _ =>
    obtain ⟨htext, hrests⟩ := quote_unique heq
    rw [String.toList_inj.mp htext]
    exact ⟨rfl, hrests⟩

theorem readOnce_arr {items : List Json} (h : floatFreeItems items = true)
    (hitems : ∀ item ∈ items, ReadOnce item) : ReadOnce (.arr items) := by
  intro j' h' rest rest' _ _ heq
  match j', kind_eq (j := .arr items) h h' heq with
  | .arr items', _ =>
    simp only [render, renderItems_eq, List.cons_append, List.append_assoc, List.cons.injEq,
      true_and, List.nil_append] at heq
    obtain ⟨rfl, hrests⟩ := commaSeparated_unique (by decide) (by decide)
      (fun _ hfree _ _ => render_ne_cons hfree (by decide)) (floatFreeItems_iff.mp h)
      (floatFreeItems_iff.mp h') hitems heq
    exact ⟨rfl, hrests⟩

theorem readOnce_obj {members : List (String × Json)} (h : floatFreeMembers members = true)
    (hmembers : ∀ m ∈ members, ReadOnce m.2) : ReadOnce (.obj members) := by
  intro j' h' rest rest' _ _ heq
  match j', kind_eq (j := .obj members) h h' heq with
  | .obj members', _ =>
    simp only [render, renderMembers_eq, List.cons_append, List.append_assoc, List.cons.injEq,
      true_and, List.nil_append] at heq
    have hcode : ∀ m ∈ members, ∀ m' : String × Json, m'.2.floatFree = true → ∀ rest rest',
        Delimited rest → Delimited rest' → renderMember m ++ rest = renderMember m' ++ rest' →
        m = m' ∧ rest = rest' := by
      intro m hm m' hfree rest rest' hrest hrest' heq
      unfold renderMember at heq
      rw [List.append_assoc, List.append_assoc] at heq
      obtain ⟨hname, hvalue⟩ := quote_unique heq
      obtain ⟨hvalue, hrests⟩ :=
        hmembers m hm m'.2 hfree _ _ hrest hrest' (List.cons.inj hvalue).2
      exact ⟨Prod.ext (String.toList_inj.mp hname) hvalue, hrests⟩
    obtain ⟨rfl, hrests⟩ := commaSeparated_unique (by decide) (by decide)
      (fun m _ _ _ => renderMember_ne_cons m (by decide)) (floatFreeMembers_iff.mp h)
      (floatFreeMembers_iff.mp h') hcode heq
    exact ⟨rfl, hrests⟩

mutual

theorem readOnce : ∀ j : Json, j.floatFree = true → ReadOnce j
  | .null, h => readOnce_word h fun j' hj' => by cases j' <;> cases hj'; rfl
  | .bool _, h => readOnce_word h fun j' hj' => by cases j' <;> cases hj'; rfl
  | .num (.int n), _ => readOnce_int n
  | .num (.float _), h => by cases h
  | .str s, _ => readOnce_str s
  | .arr items, h => readOnce_arr h (readOnce_items items h)
  | .obj members, h => readOnce_obj h (readOnce_members members h)

theorem readOnce_items :
    ∀ items : List Json, floatFreeItems items = true → ∀ item ∈ items, ReadOnce item
  | [], _ => List.forall_mem_nil _
  | item :: rest, h =>
    have h := Bool.and_eq_true_iff.mp h
    List.forall_mem_cons.mpr ⟨readOnce item h.1, readOnce_items rest h.2⟩

theorem readOnce_members : ∀ members : List (String × Json), floatFreeMembers members = true →
    ∀ m ∈ members, ReadOnce m.2
  | [], _ => List.forall_mem_nil _
  | (_, value) :: rest, h =>
    have h := Bool.and_eq_true_iff.mp h
    List.forall_mem_cons.mpr ⟨readOnce value h.1, readOnce_members rest h.2⟩

end

/-- **Values without floating-point numbers are told apart by their texts.** -/
theorem compact_injective (h : j.floatFree = true) (h' : j'.floatFree = true)
    (heq : j.compact = j'.compact) : j = j' := by
  have htext : j.render ++ [] = j'.render ++ [] :=
    congrArg (· ++ []) (String.ofList_injective heq)
  exact (readOnce j h j' h' [] [] .nil .nil htext).1

end CallGuard.Json
