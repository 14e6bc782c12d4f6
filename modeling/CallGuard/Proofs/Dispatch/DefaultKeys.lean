import CallGuard.Proofs.Dispatch.Precedence
import CallGuard.Proofs.Json.Reading
import CallGuard.Proofs.Keys
/-! # The keys that calls and circuits have by default

The default key of a call tells the signature of the method and the text of the arguments, and so
the arguments themselves where no floating-point number is among them. It ends with the bracket of
the arguments, and a circuit that is labelled by a signature has a key that ends with the
parenthesis of the signature, so calls never get into the context of such a circuit by their default
keys. -/

namespace CallGuard

open Json

theorem CircuitSettings.labelName_of_nameless {c : CircuitSettings} (h : Nameless c.label) :
    c.labelName = none := bind_nonBlank_eq_none.mpr h

/-- The key of a circuit that no label is given for is made of the signature. -/
theorem Dispatcher.circuitGuard_keyOf {d : Dispatcher} {m : Method} {c : CircuitSettings}
    {r : Option Recoverer} {g : Guard} (hg : d.circuitGuard m c r = .ok g) (h : Nameless c.label)
    {m' : Method} {arguments : List Json} {key : RetryKey}
    (hkey : g.keyOf m' arguments = some key) : key.key = Guard.circuitKey m.signature := by
  unfold circuitGuard at hg
  rw [CircuitSettings.labelName_of_nameless h] at hg
  cases hlimit : limitFor c.toAttemptSettings with
  | error e => rw [hlimit] at hg; cases hg
  | ok limit =>
    rw [hlimit] at hg
    cases hg
    cases hkey
    rfl

namespace RetryKey

theorem getLast?_default (m : Method) (arguments : List Json) :
    (default m arguments).toList.getLast? = some ']' := by
  have htext : (Json.arr arguments).compact.toList =
      ('[' :: commaSeparated (renderItems arguments)) ++ [']'] := String.toList_ofList
  unfold default
  rw [String.toList_append, htext, ← List.append_assoc, List.getLast?_concat]

theorem getLast?_circuitKey (m : Method) :
    (Guard.circuitKey m.signature).toList.getLast? = some ')' := by
  obtain ⟨front, hfront⟩ := m.signature_ends
  unfold Guard.circuitKey
  rw [String.toList_append, hfront, ← List.append_assoc, List.getLast?_concat]

theorem arguments_eq_iff {arguments arguments' : List Json}
    (h : (Json.arr arguments).floatFree = true) (h' : (Json.arr arguments').floatFree = true) :
    (Json.arr arguments).compact = (Json.arr arguments').compact ↔ arguments = arguments' := by
  constructor
  · intro htext
    injection compact_injective h h' htext
  · rintro rfl
    rfl

/-- **What a default key tells.** Two of them are equal just for the same signature and the same
text of the arguments; without floating-point numbers, just for the same signature and the same
arguments. And none is the key of a circuit that has a signature for its label. -/
theorem default_tells (m m' : Method) (arguments arguments' : List Json) :
    (default m arguments = default m' arguments' ↔
      m.signature = m'.signature ∧
        (Json.arr arguments).compact = (Json.arr arguments').compact) ∧
    ((Json.arr arguments).floatFree = true → (Json.arr arguments').floatFree = true →
      (default m arguments = default m' arguments' ↔
        m.signature = m'.signature ∧ arguments = arguments')) ∧
    ∀ (d : Dispatcher) (shared : Method) (c : CircuitSettings) (r : Option Recoverer) (g : Guard),
      d.circuitGuard shared c r = .ok g → Nameless c.label →
      ∀ call sent key, g.keyOf call sent = some key → default m arguments ≠ key.key := by
  refine ⟨default_eq_iff, fun h h' => ?_, fun d shared c r g hg hlabel call sent key hkey heq => ?_⟩
  · rw [default_eq_iff, arguments_eq_iff h h']
  · have hlast := congrArg (·.toList.getLast?) heq
    rw [Dispatcher.circuitGuard_keyOf hg hlabel hkey, getLast?_default, getLast?_circuitKey]
      at hlast
    exact absurd hlast (by decide)

/-- The names of the second method continue the key of the first as far as its text goes. -/
theorem default_tells_quoted :
    default ⟨"A", "b", []⟩ [.str "):["] ≠ default ⟨"A", "b():[\"", []⟩ [.str ""] ∧
    ∀ g key, (Dispatcher.plain []).circuitGuard Dispatcher.restock
        { CircuitSettings.default with label := some "  " } none = .ok g →
      g.keyOf Dispatcher.restock [] = some key → default Dispatcher.restock [] ≠ key.key := by
  refine ⟨fun h => ?_, fun g key hg => ?_⟩
  · have hsame := (default_tells _ _ _ _).1.mp h
    exact absurd hsame.1 (by decide)
  · exact (default_tells Dispatcher.restock Dispatcher.restock [] []).2.2 _ _ _ _ g hg
      (bind_nonBlank_eq_none.mp (by decide)) Dispatcher.restock [] key

end RetryKey

end CallGuard
