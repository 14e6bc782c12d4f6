import CallGuard.Json.Printer
/-! # Inside and outside the strings of a JSON text

A reader of a JSON text from the left knows at each character whether it stands inside a string.
`render_closed` says that the text of a value ends outside, and never has a backslash or a closing
parenthesis there. A text cannot be read both ways, from outside and from inside, and end outside:
each quote turns the one reading into the other, and a backslash is read in neither
(`not_closed_inside`). -/

namespace CallGuard.Json

/-- Where a reader stands. -/
inductive Place where
  | outside
  | inside
  /-- Inside a string, after a backslash. -/
  | escaped
deriving DecidableEq

namespace Place

/-- A character that may stand outside the strings. -/
def bare (c : Char) : Bool := !(c = '"' || c = '\\' || c = ')')

def step (p : Place) (c : Char) : Option Place :=
  match p with
  | outside => if c = '"' then some inside else if bare c then some outside else none
  | inside => if c = '"' then some outside else if c = '\\' then some escaped else some inside
  | escaped => some inside

theorem outside_step_of_bare {c : Char} (h : bare c = true) : outside.step c = some outside := by
  have hquote : c ≠ '"' := by rintro rfl; cases h
  simp [step, hquote, h]

theorem inside_step_of_bare {c : Char} (h : bare c = true) : inside.step c = some inside := by
  have hquote : c ≠ '"' := by rintro rfl; cases h
  have hback : c ≠ '\\' := by rintro rfl; cases h
  simp [step, hquote, hback]

theorem outside_step_eq_none {c : Char} (hquote : c ≠ '"') (h : bare c = false) :
    outside.step c = none := by
  simp [step, hquote, h]

def scan (p : Place) (cs : List Char) : Option Place := cs.foldlM step p

@[simp] theorem scan_cons (p : Place) (c : Char) (cs : List Char) :
    p.scan (c :: cs) = (p.step c).bind (·.scan cs) := rfl

theorem scan_append (p : Place) (cs ds : List Char) :
    p.scan (cs ++ ds) = (p.scan cs).bind (·.scan ds) := List.foldlM_append

end Place

open Place

/-- The text, read from outside the strings, ends outside. -/
def Closed (cs : List Char) : Prop := outside.scan cs = some outside

theorem Closed.nil : Closed [] := rfl

theorem Closed.append {cs ds : List Char} (hc : Closed cs) (hd : Closed ds) :
    Closed (cs ++ ds) := by
  unfold Closed at *
  rw [scan_append, hc]
  exact hd

theorem Closed.of_bare {cs : List Char} (h : ∀ c ∈ cs, bare c = true) : Closed cs := by
  induction cs with
  | nil => exact .nil
  | cons c cs ih =>
    obtain ⟨hc, hcs⟩ := List.forall_mem_cons.mp h
    unfold Closed
    rw [scan_cons, outside_step_of_bare hc]
    exact ih hcs

/-! ## The texts of values -/

/-- A character of a number's text. -/
def numeric (c : Char) : Bool := c.isDigit || c = '-' || c = '+' || c = '.' || c = 'e'

theorem bare_of_numeric {c : Char} (h : numeric c = true) : bare c = true := by
  cases hc : bare c with
  | true => rfl
  | false =>
    unfold bare at hc
    simp only [Bool.not_eq_false', Bool.or_eq_true, decide_eq_true_eq] at hc
    rcases hc with (rfl | rfl) | rfl <;> cases h

theorem numeric_of_mem_toDigits {n : Nat} : ∀ c ∈ Nat.toDigits 10 n, numeric c = true := by
  intro c hc
  unfold numeric
  rw [Nat.isDigit_of_mem_toDigits (by decide) (by decide) hc]
  rfl

theorem numeric_replicate (n : Nat) : ∀ c ∈ List.replicate n '0', numeric c = true := by
  intro c hc
  rw [List.eq_of_mem_replicate hc]
  rfl

theorem numeric_positional {ds : List Char} (h : ∀ c ∈ ds, numeric c = true) (n : Int) :
    ∀ c ∈ Binary64.positional ds n, numeric c = true := by
  unfold Binary64.positional
  split
  · simp only [List.forall_mem_cons, List.forall_mem_append]
    exact ⟨rfl, rfl, numeric_replicate _, h⟩
  · have hwhole : ∀ c ∈ ds.take n.toNat ++ List.replicate (n.toNat - ds.length) '0',
        numeric c = true :=
      List.forall_mem_append.mpr ⟨fun c hc => h c (List.mem_of_mem_take hc), numeric_replicate _⟩
    dsimp only
    split
    · have hzero : ∀ c ∈ ['.', '0'], numeric c = true :=
        List.forall_mem_cons.mpr ⟨rfl, List.forall_mem_singleton.mpr rfl⟩
      exact List.forall_mem_append.mpr ⟨hwhole, hzero⟩
    · next c cs hdrop =>
      have hrest : ∀ x ∈ c :: cs, numeric x = true := fun x hx =>
        h x (List.mem_of_mem_drop (hdrop ▸ hx))
      exact List.forall_mem_append.mpr ⟨hwhole, List.forall_mem_cons.mpr ⟨rfl, hrest⟩⟩

theorem numeric_scientific {ds : List Char} (h : ∀ c ∈ ds, numeric c = true) (e : Int) :
    ∀ c ∈ Binary64.scientific floatLayout ds e, numeric c = true := by
  unfold Binary64.scientific
  refine List.forall_mem_append.mpr ⟨?_, List.forall_mem_cons.mpr ⟨rfl, ?_⟩⟩
  · split
    · exact List.forall_mem_nil _
    · exact h
    · next c cs _ =>
      obtain ⟨hc, hcs⟩ := List.forall_mem_cons.mp h
      exact List.forall_mem_cons.mpr ⟨hc, List.forall_mem_cons.mpr ⟨rfl, hcs⟩⟩
  · refine List.forall_mem_append.mpr ⟨?_, numeric_of_mem_toDigits⟩
    split <;> exact List.forall_mem_singleton.mpr rfl

theorem numeric_numberText (n : Number) : ∀ c ∈ numberText n, numeric c = true := by
  cases n with
  | int n =>
    change ∀ c ∈ intText n, numeric c = true
    unfold intText
    split
    · exact List.forall_mem_cons.mpr ⟨rfl, numeric_of_mem_toDigits⟩
    · exact numeric_of_mem_toDigits
  | float bits =>
    change ∀ c ∈ floatLayout.text bits, numeric c = true
    have hwrite : ∀ n, ∀ c ∈ floatLayout.write n, numeric c = true := by
      intro n
      unfold Binary64.Layout.write
      dsimp only
      split
      · exact numeric_positional numeric_of_mem_toDigits _
      · exact numeric_scientific numeric_of_mem_toDigits _
    unfold Binary64.Layout.text
    dsimp only
    split
    · exact List.forall_mem_cons.mpr ⟨rfl, hwrite _⟩
    · exact hwrite _

/-- The hexadecimal digits of a control character are no delimiters. -/
theorem hexDigits_plain {n : Nat} (h : n < 0x20) :
    ∀ d ∈ Binary64.hexDigits 4 n, d ≠ '"' ∧ d ≠ '\\' := by
  have hall : ((List.range 0x20).all fun n =>
      (Binary64.hexDigits 4 n).all fun d => d != '"' && d != '\\') = true := by decide +kernel
  intro d hd
  have hone := List.all_eq_true.mp (List.all_eq_true.mp hall n (List.mem_range.mpr h)) d hd
  simpa using hone

/-- An escaped character leaves a reader inside the string. -/
theorem scan_escapeChar (c : Char) : inside.scan (escapeChar c) = some inside := by
  have hplain : ∀ cs : List Char, (∀ d ∈ cs, d ≠ '"' ∧ d ≠ '\\') →
      inside.scan cs = some inside := by
    intro cs h
    induction cs with
    | nil => rfl
    | cons d ds ih =>
      obtain ⟨⟨hquote, hback⟩, hds⟩ := List.forall_mem_cons.mp h
      rw [scan_cons, show inside.step d = some inside by simp [step, hquote, hback]]
      exact ih hds
  unfold escapeChar
  split
  · rfl
  · next hquote =>
    split
    · rfl
    · next hback =>
      split
      · exact hplain [c] (List.forall_mem_singleton.mpr ⟨hquote, hback⟩)
      · next hcontrol =>
        iterate 5 (split; · rfl)
        exact hplain (Binary64.hexDigits 4 c.toNat) (hexDigits_plain (Nat.not_le.mp hcontrol))

theorem quote_closed (cs : List Char) : Closed (quote cs) := by
  have hinside : inside.scan (cs.flatMap escapeChar) = some inside := by
    induction cs with
    | nil => rfl
    | cons c cs ih =>
      rw [List.flatMap_cons, scan_append, scan_escapeChar]
      exact ih
  unfold Closed quote
  change inside.scan (cs.flatMap escapeChar ++ ['"']) = some outside
  rw [scan_append, hinside]
  rfl

theorem commaSeparated_closed {pieces : List (List Char)} (h : ∀ cs ∈ pieces, Closed cs) :
    Closed (commaSeparated pieces) := by
  induction pieces with
  | nil => exact .nil
  | cons piece rest ih =>
    obtain ⟨hpiece, hrest⟩ := List.forall_mem_cons.mp h
    cases rest with
    | nil => exact hpiece
    | cons next rest => exact hpiece.append (ih hrest)

/-- Brackets around a text change nothing. -/
theorem Closed.bracket {cs : List Char} (h : Closed cs) (left right : Char)
    (hl : bare left = true) (hr : bare right = true) : Closed (left :: (cs ++ [right])) :=
  (Closed.of_bare (List.forall_mem_singleton.mpr hl)).append
    (h.append (.of_bare (List.forall_mem_singleton.mpr hr)))

mutual

/-- **The text of a value begins and ends outside the strings.** -/
theorem render_closed : ∀ j : Json, Closed j.render
  | .null => rfl
  | .bool true => rfl
  | .bool false => rfl
  | .num n => .of_bare fun c hc => bare_of_numeric (numeric_numberText n c hc)
  | .str s => quote_closed s.toList
  | .arr items => (commaSeparated_closed (renderItems_closed items)).bracket '[' ']' rfl rfl
  | .obj members =>
    (commaSeparated_closed (renderMembers_closed members)).bracket '\x7b' '\x7d' rfl rfl

theorem renderItems_closed : ∀ items : List Json, ∀ cs ∈ renderItems items, Closed cs
  | [] => List.forall_mem_nil _
  | item :: rest => List.forall_mem_cons.mpr ⟨render_closed item, renderItems_closed rest⟩

theorem renderMembers_closed :
    ∀ members : List (String × Json), ∀ cs ∈ renderMembers members, Closed cs
  | [] => List.forall_mem_nil _
  | (name, value) :: rest => List.forall_mem_cons.mpr
    ⟨(quote_closed name.toList).append (render_closed value), renderMembers_closed rest⟩

end

/-! ## One text read in two ways -/

/-- Read from outside and from inside, a text does not end outside both times. -/
theorem not_closed_inside {cs : List Char} (h : Closed cs) : inside.scan cs ≠ some outside := by
  intro hin
  unfold Closed at h
  induction cs with
  | nil => cases hin
  | cons c cs ih =>
    rw [scan_cons] at h hin
    by_cases hquote : c = '"'
    · -- the readers change places
      subst hquote
      exact ih hin h
    · cases hbare : bare c with
      | false => rw [outside_step_eq_none hquote hbare] at h; cases h
      | true =>
        rw [outside_step_of_bare hbare] at h
        rw [inside_step_of_bare hbare] at hin
        exact ih h hin

end CallGuard.Json
