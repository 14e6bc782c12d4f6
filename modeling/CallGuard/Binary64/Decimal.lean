import CallGuard.Binary64
/-! # Reading decimal numerals by scaling

A significand of at most 64 bits is widened and then multiplied or divided by a power of ten, each of
these steps rounding to the nearest binary64 number. Two roundings are no loss while the significand
is below `2 ^ 53` and the power at most `10 ^ 22`, where the first one and the power are exact;
beyond that the result can be a last place away from the nearest number. -/

namespace CallGuard.Binary64

def fraction (bits : UInt64) : Nat × Nat :=
  let d := decode bits
  rescale d.significand 1 (-d.exponent)

def product (x y : UInt64) : UInt64 :=
  let (a, b) := fraction x
  let (c, d) := fraction y
  nearest (a * c) (b * d)

/-- The quotient of two finite magnitudes, the second one positive. -/
def quotient (x y : UInt64) : UInt64 :=
  let (a, b) := fraction x
  let (c, d) := fraction y
  nearest (a * d) (b * c)

/-- The exponent of the greatest power of ten that is finite. -/
def greatestPower : Nat := 308

def powerOfTen (n : Nat) : UInt64 := nearest (Nat.pow 10 n) 1

/-- `x * 10 ^ n`, infinity where that power is not finite. -/
def scaleUp (x : UInt64) (n : Nat) : UInt64 :=
  if x = 0 then 0
  else if n ≤ greatestPower then product x (powerOfTen n)
  else UInt64.ofNat infinityBits

/-- `x / 10 ^ n`, by the greatest power as long as `n` is above it. Zero stays zero, so a long way
down ends early. -/
def scaleDown (x : UInt64) (n : Nat) : UInt64 :=
  if x = 0 then 0
  else if n ≤ greatestPower then quotient x (powerOfTen n)
  else scaleDown (quotient x (powerOfTen greatestPower)) (n - greatestPower)
termination_by n
decreasing_by simp only [greatestPower] at *; omega

/-- The numeral `m * 10 ^ e` with its sign, read by scaling. -/
def ofDecimal (negative : Bool) (m : Nat) (e : Int) : UInt64 :=
  let x := nearest m 1
  let scaled := if e < 0 then scaleDown x (-e).toNat else scaleUp x e.toNat
  if negative then negate scaled else scaled

end CallGuard.Binary64
