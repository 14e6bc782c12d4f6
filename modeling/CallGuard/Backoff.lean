import CallGuard.Binary64
import CallGuard.Random
import CallGuard.Settings
/-! # How long to wait before another attempt

A backoff gives each attempt a delay: none for attempt 0, the first call itself, and for attempt
`n ≥ 1` the delay before the retry that follows the `n`-th failure. No delay is longer than a day.
Growing delays are computed in binary64 arithmetic and rounded to whole nanoseconds, halves away
from zero; uniform ones are drawn in whole milliseconds. -/

namespace CallGuard

inductive Backoff where
  /-- Never waits; not even for no time. -/
  | none
  | fixed (period : Duration)
  | uniform (low high : Duration)
  /-- `initial * multiplier ^ (attempt - 1)`, at most `high`. -/
  | exponential (initial : Duration) (multiplier : Float) (high : Duration)
  /-- An exponential delay stretched by a random factor from 1 to `multiplier`, at most `high`. -/
  | exponentialRandom (initial : Duration) (multiplier : Float) (high : Duration)
deriving BEq, Repr, Inhabited

namespace Backoff

/-- The longest delay there is: a day. -/
def longestDelay : Duration := Duration.ofMillis 86400000

/-- The bound of exponential delays when the settings give none: half a minute. -/
def defaultBound : Duration := Duration.ofMillis 30000

/-- `x` to the power `n` by repeated squaring; `r` is the power for the binary digits of `n` dealt
with so far, and `x` the square for the digit before the next. -/
def powerFrom (r x : Float) (n : Nat) : Float :=
  if h : n / 2 = 0 then r
  else
    let square := x * x
    powerFrom (if n / 2 % 2 = 1 then r * square else r) square (n / 2)
termination_by n
decreasing_by omega

def power (x : Float) (n : Nat) : Float := powerFrom (if n % 2 = 1 then x else 1) x n

/-- The larger of two numbers; one that is not a number gives way to the other. -/
def larger (a b : Float) : Float :=
  if a.isNaN then b else if b.isNaN then a else if a < b then b else a

/-- A duration times a factor, to the nearest nanosecond. What is not a number, or not below a day,
is a day; what is not positive is no time. -/
def scale (base : Duration) (factor : Float) : Duration :=
  if base = Duration.zero then Duration.zero
  else
    let nanos := Binary64.floatOfNat base.nanos * factor
    if !nanos.isFinite || nanos ≥ Binary64.floatOfNat longestDelay.nanos then longestDelay
    else if nanos ≤ 0 then Duration.zero
    else ⟨nanos.round.toUInt64.toNat⟩

/-- The exponential delay before the bounds. The exponent stops growing at 2^31 - 1. -/
def growing (initial : Duration) (multiplier : Float) (attempt : Nat) : Duration :=
  scale initial (power multiplier (min (attempt - 1) 0x7FFFFFFF))

def drawMillis (d : Duration) : Nat := min d.millis (UInt64.size - 1)

/-- The delay before an attempt, and the random words it leaves. -/
def delay (b : Backoff) (attempt : Nat) (words : Words) : Duration × Words :=
  if attempt = 0 then (Duration.zero, words)
  else match b with
    | .none => (Duration.zero, words)
    | .fixed period => (min period longestDelay, words)
    | .uniform low high =>
      let lowest := drawMillis low
      let (n, words') := words.drawBetween lowest (max (drawMillis high) lowest)
      (min (Duration.ofMillis n) longestDelay, words')
    | .exponential initial multiplier high =>
      (min (min (growing initial multiplier attempt) high) longestDelay, words)
    | .exponentialRandom initial multiplier high =>
      let base := min (growing initial multiplier attempt) high
      let (u, words') := words.drawUnit
      let stretch := 1 + u * larger (multiplier - 1) 0
      (min (min (scale base stretch) high) longestDelay, words')

/-- The backoff that settings describe: exponential when there is a positive multiplier, else
uniform when the maximum is above the delay, else fixed. -/
def ofSettings (s : BackoffSettings) : Backoff :=
  let low := s.effectiveDelay
  if s.multiplier > 0 then
    let high := if s.maxDelay > low then s.maxDelay else defaultBound
    if s.random then .exponentialRandom low s.multiplier high
    else .exponential low s.multiplier high
  else if s.maxDelay > low then .uniform low s.maxDelay
  else .fixed low

end Backoff

end CallGuard
