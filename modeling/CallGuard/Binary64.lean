/-! # IEEE 754 binary64 numbers by their bit patterns

`nearest` rounds a quotient of naturals to the binary64 number closest to it, a tie going to the
even significand; `decode` reads a bit pattern back as an integer times a power of two. Widening an
integer is an instance of `nearest`, so it rounds once. -/

namespace CallGuard.Binary64

/-- A quotient rounded to an integer, a half going to the even neighbour. -/
def roundEven (num den : Nat) : Nat :=
  let q := num / den
  let r := num % den
  if 2 * r < den then q
  else if den < 2 * r then q + 1
  else if q % 2 = 0 then q else q + 1

/-- `num / den` times two to the `-q`, as a quotient of naturals. -/
def rescale (num den : Nat) (q : Int) : Nat × Nat :=
  if q < 0 then (num * Nat.pow 2 (-q).toNat, den) else (num, den * Nat.pow 2 q.toNat)

/-- The exponent of the leading binary digit of `num / den`, both positive. -/
def leadingExponent (num den : Nat) : Int :=
  let e : Int := (num.log2 : Int) - (den.log2 : Int)
  let (n, d) := rescale num den e
  if n < d then e - 1 else e

/-- The leading bit of the significand of a normal number: two to the 52. -/
def leadingBit : Nat := 0x10000000000000

def infinityBits : Nat := 0x7FF0000000000000

/-- The bits of the binary64 number nearest to `num / den`, ties to even; past the largest finite
number that is infinity. -/
def nearest (num den : Nat) : UInt64 :=
  if num = 0 then 0
  else
    let q := max (leadingExponent num den - 52) (-1074)
    let (n, d) := rescale num den q
    UInt64.ofNat (min ((q + 1074).toNat * leadingBit + roundEven n d) infinityBits)

def negate (bits : UInt64) : UInt64 := bits ^^^ 0x8000000000000000

def isNegative (bits : UInt64) : Bool := 0x8000000000000000 ≤ bits

/-- The pattern without its sign. -/
def magnitude (bits : UInt64) : Nat := bits.toNat % 0x8000000000000000

/-- A finite magnitude as `significand * 2 ^ exponent`. -/
structure Dyadic where
  significand : Nat
  exponent : Int
deriving Repr

def decode (bits : UInt64) : Dyadic :=
  let biased : Nat := magnitude bits / leadingBit
  let fraction : Nat := magnitude bits % leadingBit
  if biased = 0 then ⟨fraction, -1074⟩ else ⟨leadingBit + fraction, (biased : Int) - 1075⟩

def ofInt (n : Int) : UInt64 := if n < 0 then negate (nearest n.natAbs 1) else nearest n.natAbs 1

def floatOfNat (n : Nat) : Float := Float.ofBits (nearest n 1)

/-- The digits of the hexadecimal form of `n`, most significant first, padded to `width`. -/
def hexDigits (width n : Nat) : List Char :=
  let ds := Nat.toDigits 16 n
  List.replicate (width - ds.length) '0' ++ ds

def hex (bits : UInt64) : String := String.ofList (hexDigits 16 bits.toNat)

end CallGuard.Binary64
