import CallGuard.Binary64
/-! # The shortest decimal numeral that reads back as a given binary64 number, and its layout

A number is the nearest binary64 number to every real in an interval around it. Grids of 1, 2, …, 17
significant digits are searched in turn; the first grid with a point in the interval gives the
digits, the closer of two points winning. `Layout` holds what is a matter of format: which of two
equally close points is taken, where positional notation ends, and whether a positive exponent
carries its sign. -/

namespace CallGuard.Binary64

/-- Which of two neighbouring points is taken for a value midway between them. -/
inductive Tie where
  | even
  | up
deriving Repr, DecidableEq

/-- The point for a value midway between `below` and the next. -/
def Tie.resolve (tie : Tie) (below : Nat) : Nat :=
  match tie with
  | .even => if below % 2 = 0 then below else below + 1
  | .up => below + 1

/-- The numeral `digits * 10 ^ exponent`; the digits of a non-zero one do not end in zero. -/
structure Numeral where
  digits : Nat
  exponent : Int
deriving Repr, DecidableEq

/-- The interval that rounds to a number, with the number, in quarters of its last place. -/
structure Interval where
  low : Nat
  value : Nat
  high : Nat
  /-- Whether the ends round to the number as well: so when its significand is even. -/
  closed : Bool

/-- The neighbours lie one place off, half a place below where the significand is the smallest of
its binade. -/
def interval (d : Dyadic) : Interval :=
  let m := d.significand
  { low := if m = leadingBit ∧ d.exponent ≠ -1074 then 4 * m - 1 else 4 * m - 2
    value := 4 * m
    high := 4 * m + 2
    closed := m % 2 = 0 }

def unitQuotient (two ten : Int) : Nat × Nat :=
  (Nat.pow 2 two.toNat * Nat.pow 10 (-ten).toNat, Nat.pow 2 (-two).toNat * Nat.pow 10 ten.toNat)

def digitCount (n : Nat) : Nat := (Nat.toDigits 10 n).length

/-- The exponent of the leading decimal digit of `num / den`, both positive. -/
def leadingTenth (num den : Nat) : Int :=
  if den ≤ num then (digitCount (num / den) : Int) - 1
  else -(digitCount ((den - 1) / num) : Int)

/-- The point of the grid `10 ^ ten` in the interval that is closest to the value, if there is one.
-/
def pointOnGrid (tie : Tie) (i : Interval) (two ten : Int) : Option Nat :=
  let (num, den) := unitQuotient two ten
  let inside (c : Nat) : Bool :=
    if i.closed then decide (i.low * num ≤ c * den ∧ c * den ≤ i.high * num)
    else decide (i.low * num < c * den ∧ c * den < i.high * num)
  let below := i.value * num / den
  let rest := i.value * num % den
  match inside below, inside (below + 1) with
  | true, false => some below
  | false, true => some (below + 1)
  | false, false => none
  | true, true =>
    if 2 * rest < den then some below
    else if den < 2 * rest then some (below + 1)
    else some (tie.resolve below)

/-- Moves trailing zeros of the digits into the exponent, at most `fuel` of them. -/
def stripZeros : Nat → Nat → Int → Numeral
  | 0, ds, e => ⟨ds, e⟩
  | fuel + 1, ds, e => if ds % 10 = 0 then stripZeros fuel (ds / 10) (e + 1) else ⟨ds, e⟩

/-- Searches the grids that give `17 - left`, …, 16, 17 digits below the place `top`. -/
def searchGrids (tie : Tie) (i : Interval) (two top : Int) : Nat → Numeral
  | 0 =>
    let (num, den) := unitQuotient two (top - 16)
    stripZeros 17 (i.value * num / den) (top - 16)
  | left + 1 =>
    let ten := top - 16 + left
    match pointOnGrid tie i two ten with
    | some c => stripZeros 18 c ten
    | none => searchGrids tie i two top left

def shortest (tie : Tie) (bits : UInt64) : Numeral :=
  let d := decode bits
  if d.significand = 0 then ⟨0, 0⟩
  else
    let two := d.exponent - 2
    let (num, den) := unitQuotient two 0
    searchGrids tie (interval d) two (leadingTenth (4 * d.significand * num) den) 17

structure Layout where
  tie : Tie
  /-- Least exponent of the leading digit that is written positionally. -/
  least : Int
  /-- Greatest exponent of the leading digit that is written positionally. -/
  greatest : Int
  /-- What stands before the exponent when it is not negative. -/
  plus : List Char

/-- The digits `ds` with a point after the first `n`, at least one digit on either side. -/
def positional (ds : List Char) (n : Int) : List Char :=
  if n ≤ 0 then '0' :: '.' :: (List.replicate (-n).toNat '0' ++ ds)
  else
    let whole := ds.take n.toNat ++ List.replicate (n.toNat - ds.length) '0'
    match ds.drop n.toNat with
    | [] => whole ++ ['.', '0']
    | c :: cs => whole ++ '.' :: c :: cs

/-- The digits `ds` with a point after the first, if more follow, and the exponent `e`. -/
def scientific (layout : Layout) (ds : List Char) (e : Int) : List Char :=
  let mantissa := match ds with
    | [] => []
    | [c] => [c]
    | c :: cs => c :: '.' :: cs
  let exponent := (if e < 0 then ['-'] else layout.plus) ++ Nat.toDigits 10 e.natAbs
  mantissa ++ 'e' :: exponent

def Layout.write (layout : Layout) (n : Numeral) : List Char :=
  let ds := Nat.toDigits 10 n.digits
  let leading := n.exponent + ds.length - 1
  if layout.least ≤ leading ∧ leading ≤ layout.greatest then positional ds (leading + 1)
  else scientific layout ds leading

def Layout.text (layout : Layout) (bits : UInt64) : List Char :=
  let body := layout.write (shortest layout.tie bits)
  if isNegative bits then '-' :: body else body

end CallGuard.Binary64
