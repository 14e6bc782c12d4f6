import CallGuard.Duration
/-! # A clock that is moved by hand, and may run on by itself

It counts milliseconds in 64 bits. Moving it forward drops the part of a step below a millisecond,
takes the longest step the counter can hold for a longer one, and wraps around at the end. A clock
that runs on by itself moves after each reading; how far it will is part of the clock, so every
course of time between the readings of a run is the course of some clock. -/

namespace CallGuard

structure Clock where
  ticks : UInt64
  /-- How far it moves by itself after each of its next readings; then it stands still. -/
  drift : List Duration
deriving DecidableEq, Repr, Inhabited

namespace Clock

def start : Clock := ⟨0, []⟩

def now (c : Clock) : Nat := c.ticks.toNat

def advance (c : Clock) (step : Duration) : Clock :=
  { c with ticks := c.ticks + UInt64.ofNat (min step.millis (UInt64.size - 1)) }

def set (c : Clock) (millis : Nat) : Clock := { c with ticks := UInt64.ofNat millis }

def read (c : Clock) : Clock :=
  match c.drift with
  | [] => c
  | step :: drift => { c.advance step with drift := drift }

theorem now_advance (c : Clock) (step : Duration) :
    (c.advance step).now = (c.now + min step.millis (UInt64.size - 1)) % UInt64.size := by
  simp only [now, advance, UInt64.toNat_add, UInt64.toNat_ofNat', UInt64.size]
  omega

theorem now_set (c : Clock) {millis : Nat} (h : millis < UInt64.size) :
    (c.set millis).now = millis := by
  rw [UInt64.size] at h
  simp only [now, set, UInt64.toNat_ofNat']
  omega

end Clock

end CallGuard
