import CallGuard.Plan
import CallGuard.Proofs.Json.Quoting
/-! # What a default key tells

The default key of a call is the signature of its method, a colon and its arguments as JSON. Names
may hold any character, so the colon alone does not mark where the signature ends; but a signature
ends with a parenthesis, which the JSON text has in its strings only. So the key tells the signature
and the text of the arguments. It does not tell methods of one signature apart. -/

namespace CallGuard

theorem Method.signature_ends (m : Method) : ∃ front, m.signature.toList = front ++ [')'] := by
  unfold Method.signature
  rw [String.toList_append]
  exact ⟨_, rfl⟩

namespace RetryKey

open Json

/-- A signature does not go on in the text that follows another one. -/
theorem no_overhang {signature more text text' front : List Char}
    (h : ':' :: text = more ++ ':' :: text') (hends : signature ++ more = front ++ [')'])
    (htext : Closed text) (htext' : Closed text') : more = [] := by
  cases more with
  | nil => rfl
  | cons c more =>
    obtain ⟨rfl, rfl⟩ := List.cons_eq_cons.mp h
    -- the parenthesis and the colon after it, read in the text, are inside a string
    obtain ⟨mid, rfl⟩ : ∃ mid, more = mid ++ [')'] := by
      have hlast := congrArg List.getLast? hends
      rw [List.getLast?_append, List.getLast?_concat, List.getLast?_cons] at hlast
      cases hmore : more.getLast? with
      | none => rw [hmore] at hlast; cases hlast
      | some last =>
        rw [hmore] at hlast
        cases hlast
        exact List.getLast?_eq_some_iff.mp hmore
    have hread : Place.outside.scan (mid ++ ')' :: ':' :: text') = some .outside := by
      rw [List.append_cons]; exact htext
    rw [Place.scan_append] at hread
    cases hmid : Place.outside.scan mid with
    | none => rw [hmid] at hread; cases hread
    | some p =>
      rw [hmid] at hread
      cases p with
      | outside => cases hread
      | inside | escaped =>
        have hinside : Place.inside.scan text' = some .outside := hread
        exact absurd hinside (not_closed_inside htext')

theorem split_unique {signature signature' text text' front front' : List Char}
    (h : signature ++ ':' :: text = signature' ++ ':' :: text')
    (hends : signature = front ++ [')']) (hends' : signature' = front' ++ [')'])
    (htext : Closed text) (htext' : Closed text') : signature = signature' ∧ text = text' := by
  suffices hsig : signature = signature' by
    subst hsig
    exact ⟨rfl, (List.cons_eq_cons.mp (List.append_cancel_left h)).2⟩
  rcases List.append_eq_append_iff.mp h with ⟨more, hmore, hrest⟩ | ⟨more, hmore, hrest⟩
  · rw [no_overhang hrest (hmore.symm.trans hends') htext htext', List.append_nil] at hmore
    exact hmore.symm
  · rw [no_overhang hrest (hmore.symm.trans hends) htext' htext, List.append_nil] at hmore
    exact hmore

/-- **Default keys are equal only for one signature and one text of the arguments.** -/
theorem default_eq_iff {m m' : Method} {arguments arguments' : List Json} :
    default m arguments = default m' arguments' ↔
      m.signature = m'.signature ∧
        (Json.arr arguments).compact = (Json.arr arguments').compact := by
  constructor
  · intro h
    have hlist := congrArg String.toList h
    simp only [default, compact, String.toList_append, String.toList_ofList,
      List.append_assoc] at hlist
    obtain ⟨front, hm⟩ := m.signature_ends
    obtain ⟨front', hm'⟩ := m'.signature_ends
    obtain ⟨hsig, htext⟩ := split_unique hlist hm hm' (render_closed _) (render_closed _)
    exact ⟨String.toList_inj.mp hsig, congrArg String.ofList htext⟩
  · rintro ⟨hm, htext⟩
    unfold default
    rw [hm, htext]

/-- Two methods of one signature. -/
example : default ⟨"A", "b::c", []⟩ [] = default ⟨"A::b", "c", []⟩ [] := by decide

end RetryKey

end CallGuard
