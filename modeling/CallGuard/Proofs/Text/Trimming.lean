import Mathlib.Data.List.DropRight
import CallGuard.Settings
/-! # What trimming leaves

A text has a name in it if it is not all white space. The name is what lies between the white space
at both ends: it begins and ends with other characters, and only white space is around it. That says
which name it is, and `nonBlank` finds it. -/

namespace CallGuard.Text

/-- Nothing is in the text but white space. -/
def Blank (raw : String) : Prop := ∀ c ∈ raw.toList, isBlank c = true

/-- The name in a text, with white space around it. -/
structure Names (raw name : String) : Prop where
  around : ∃ before after, raw.toList = before ++ name.toList ++ after ∧
    (∀ c ∈ before, isBlank c = true) ∧ ∀ c ∈ after, isBlank c = true
  nonempty : name.toList ≠ []
  first : ∀ c, name.toList.head? = some c → isBlank c = false
  last : ∀ c, name.toList.getLast? = some c → isBlank c = false

/-! ## Trimming characters -/

theorem trimChars_eq (cs : List Char) :
    trimChars cs = (cs.dropWhile isBlank).rdropWhile isBlank := rfl

/-- Only white space is dropped. -/
theorem around_trimChars (cs : List Char) :
    ∃ before after, cs = before ++ trimChars cs ++ after ∧
      (∀ c ∈ before, isBlank c = true) ∧ ∀ c ∈ after, isBlank c = true := by
  let rest := cs.dropWhile isBlank
  refine ⟨cs.takeWhile isBlank, rest.rtakeWhile isBlank, ?_, fun c hc => List.mem_takeWhile_imp hc,
    fun c hc => List.mem_rtakeWhile_imp hc⟩
  have hrest : trimChars cs ++ rest.rtakeWhile isBlank = rest := by
    rw [trimChars_eq, List.rdropWhile, List.rtakeWhile, ← List.reverse_append,
      List.takeWhile_append_dropWhile, List.reverse_reverse]
  rw [List.append_assoc, hrest, List.takeWhile_append_dropWhile]

theorem head?_trimChars {cs : List Char} {c : Char} (h : (trimChars cs).head? = some c) :
    isBlank c = false := by
  have hfirst := List.head?_dropWhile_not isBlank cs
  obtain ⟨after, hafter⟩ := List.rdropWhile_prefix isBlank (cs.dropWhile isBlank)
  rw [← hafter, List.head?_append, ← trimChars_eq, h] at hfirst
  simpa using hfirst

theorem getLast?_trimChars {cs : List Char} {c : Char} (h : (trimChars cs).getLast? = some c) :
    isBlank c = false := by
  have hlast := List.head?_dropWhile_not isBlank (cs.dropWhile isBlank).reverse
  rw [trimChars, List.getLast?_reverse] at h
  rw [h] at hlast
  simpa using hlast

theorem trimChars_eq_nil {cs : List Char} : trimChars cs = [] ↔ ∀ c ∈ cs, isBlank c = true := by
  rw [trimChars_eq, List.rdropWhile_eq_nil_iff]
  constructor
  · intro h c hc
    rw [← List.takeWhile_append_dropWhile (p := isBlank) (l := cs)] at hc
    rcases List.mem_append.mp hc with hc | hc
    · exact List.mem_takeWhile_imp hc
    · exact h c hc
  · intro h c hc
    exact h c ((List.dropWhile_suffix _).subset hc)

/-- All white space around a name is dropped. -/
theorem trimChars_around {before name after : List Char}
    (hbefore : ∀ c ∈ before, isBlank c = true) (hafter : ∀ c ∈ after, isBlank c = true)
    (hne : name ≠ []) (hfirst : ∀ c, name.head? = some c → isBlank c = false)
    (hlast : ∀ c, name.getLast? = some c → isBlank c = false) :
    trimChars (before ++ name ++ after) = name := by
  have hkept : (name ++ after).dropWhile isBlank = name ++ after := by
    obtain ⟨c, tail, rfl⟩ := List.exists_cons_of_ne_nil hne
    exact List.dropWhile_cons_of_neg (by rw [hfirst c rfl]; nofun)
  rw [trimChars, List.append_assoc, List.dropWhile_append_of_pos hbefore, hkept,
    List.reverse_append,
    List.dropWhile_append_of_pos fun c hc => hafter c (List.mem_reverse.mp hc)]
  exact List.rdropWhile_eq_self_iff.mpr fun hl => by
    rw [hlast _ (List.getLast?_eq_some_getLast hl)]; nofun

/-! ## Trimming texts -/

theorem nonBlank_eq (raw : String) : nonBlank raw =
    if trimChars raw.toList = [] then none else some (String.ofList (trimChars raw.toList)) := by
  unfold nonBlank
  cases trimChars raw.toList <;> rfl

/-- **The text that trimming leaves is the name in the text.** -/
theorem nonBlank_eq_some {raw name : String} : nonBlank raw = some name ↔ Names raw name := by
  rw [nonBlank_eq]
  constructor
  · intro h
    split at h
    · cases h
    · next hne =>
      obtain rfl := Option.some.inj h
      obtain ⟨before, after, haround, hbefore, hafter⟩ := around_trimChars raw.toList
      rw [← String.toList_ofList (l := trimChars raw.toList)] at haround
      refine ⟨⟨before, after, haround, hbefore, hafter⟩, ?_, fun c hc => ?_, fun c hc => ?_⟩
      · rw [String.toList_ofList]; exact hne
      · rw [String.toList_ofList] at hc; exact head?_trimChars hc
      · rw [String.toList_ofList] at hc; exact getLast?_trimChars hc
  · rintro ⟨⟨before, after, haround, hbefore, hafter⟩, hne, hfirst, hlast⟩
    rw [haround, trimChars_around hbefore hafter hne hfirst hlast, if_neg hne, String.ofList_toList]

theorem nonBlank_eq_none {raw : String} : nonBlank raw = none ↔ Blank raw := by
  rw [nonBlank_eq, Blank, ← trimChars_eq_nil]
  simp

end CallGuard.Text
