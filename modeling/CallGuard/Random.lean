/-! # Random draws from a sequence of 64-bit words

`drawBelow` scales a word to a range by its upper half and corrects the bias of that with the lower
half of a second word, when it can matter. `drawUnit` takes the upper 53 bits of a word as a
fraction. Both leave the words that they did not use, so draws are made one after the other. -/

namespace CallGuard

/-- A sequence of random words that starts again after the last one. -/
structure Words where
  cycle : List UInt64
  taken : Nat
deriving Repr, Inhabited

namespace Words

/-- The words in turn, and zero for ever if there are none. -/
def ofList (cycle : List UInt64) : Words := ⟨cycle, 0⟩

def next (w : Words) : Nat × Words :=
  ((w.cycle[w.taken % w.cycle.length]?.getD 0).toNat, { w with taken := w.taken + 1 })

def modulus : Nat := UInt64.size

theorem next_lt (w : Words) : w.next.1 < modulus := UInt64.toNat_lt _

/-- The result of a draw below `range`, from its words; `second` is looked at only where the lower
half of the first product is too close to a carry. -/
def scaled (range first second : Nat) : Nat :=
  let product := first * range
  let carry := product % modulus + second * range / modulus
  if modulus - range < product % modulus ∧ modulus ≤ carry then product / modulus + 1
  else product / modulus

/-- A draw below `range`, which lies between 1 and 2^64 - 1. -/
def drawBelow (range : Nat) (w : Words) : Nat × Words :=
  let (first, w') := w.next
  if modulus - range < first * range % modulus then
    let (second, w'') := w'.next
    (scaled range first second, w'')
  else (scaled range first 0, w')

/-- A draw from `low` to `high`, both included, neither above 2^64 - 1. -/
def drawBetween (low high : Nat) (w : Words) : Nat × Words :=
  if high - low + 1 = modulus then w.next
  else
    let (n, w') := drawBelow (high - low + 1) w
    (low + n, w')

/-- A draw from zero, included, to one, excluded. -/
def drawUnit (w : Words) : Float × Words :=
  let (n, w') := w.next
  (Float.ofNat (n / 2048) * Float.ofBits 0x3CA0000000000000, w')

theorem scaled_lt {range first second : Nat} (hr : 0 < range) (hf : first < modulus)
    (hs : second < modulus) : scaled range first second < range := by
  have hm : 0 < modulus := by decide
  have h1 : first * range / modulus < range :=
    (Nat.div_lt_iff_lt_mul hm).2 <| by
      rw [Nat.mul_comm range]
      exact Nat.mul_lt_mul_of_pos_right hf hr
  have h2 : second * range / modulus < range :=
    (Nat.div_lt_iff_lt_mul hm).2 <| by
      rw [Nat.mul_comm range]
      exact Nat.mul_lt_mul_of_pos_right hs hr
  unfold scaled
  dsimp only
  split
  · next h =>
    have hle : first * range ≤ (modulus - 1) * range := Nat.mul_le_mul_right _ (by omega)
    have hdm := Nat.div_add_mod (first * range) modulus
    have hmul : (modulus - 1) * range + range = modulus * range := by
      rw [Nat.sub_mul, Nat.one_mul]
      have : range ≤ modulus * range := Nat.le_mul_of_pos_left _ hm
      omega
    have hlt : modulus * (first * range / modulus + 1) < modulus * range := by
      rw [Nat.mul_add, Nat.mul_one]
      omega
    exact Nat.lt_of_mul_lt_mul_left hlt
  · exact h1

end Words

end CallGuard
