import CallGuard.Duration
import CallGuard.Event
import CallGuard.Failure
/-! # What a method or a type declares about retries

Settings are plain values with defaults. Two of them have an older spelling: of the two lists of
retried types the older one counts when it is not empty, and of the two delays the newer one counts
when it is not zero. Names and labels are trimmed, and one of which nothing is left is the same as
none. White space is the Unicode property White_Space, which is wider than core's
`Char.isWhitespace`. -/

namespace CallGuard

namespace Text

/-- The code points with the Unicode property White_Space. -/
def isBlank (c : Char) : Bool :=
  let n := c.toNat
  (0x09 ≤ n && n ≤ 0x0D) || n == 0x20 || n == 0x85 || n == 0xA0 || n == 0x1680 ||
    (0x2000 ≤ n && n ≤ 0x200A) || n == 0x2028 || n == 0x2029 || n == 0x202F || n == 0x205F ||
    n == 0x3000

/-- The characters left after dropping white space at both ends. -/
def trimChars (cs : List Char) : List Char :=
  ((cs.dropWhile isBlank).reverse.dropWhile isBlank).reverse

def trim (s : String) : String := String.ofList (trimChars s.toList)

def nonBlank (s : String) : Option String :=
  match trimChars s.toList with
  | [] => none
  | c :: cs => some (String.ofList (c :: cs))

theorem isBlank_of_isWhitespace (c : Char) (h : c.isWhitespace = true) : isBlank c = true := by
  simp only [Char.isWhitespace, Bool.or_eq_true, decide_eq_true_eq] at h
  rcases h with ((rfl | rfl) | rfl) | rfl <;> rfl

end Text

/-- How long to wait between attempts. Zero stands for unset in the delays and the multiplier. -/
structure BackoffSettings where
  delay : Duration
  /-- The older spelling of the delay. -/
  legacyDelay : Duration
  maxDelay : Duration
  multiplier : Float
  random : Bool
deriving BEq, Repr

namespace BackoffSettings

def default : BackoffSettings :=
  ⟨Duration.zero, Duration.ofMillis 1000, Duration.zero, 0, false⟩

instance : Inhabited BackoffSettings := ⟨default⟩

def effectiveDelay (s : BackoffSettings) : Duration :=
  if s.delay = Duration.zero then s.legacyDelay else s.delay

end BackoffSettings

/-- Which failures are worth another attempt, and how many attempts there are. -/
structure AttemptSettings where
  /-- Attempts in all, the first one included. -/
  maxAttempts : Nat
  includes : List FailureType
  /-- The older spelling of the included types. -/
  legacyIncludes : List FailureType
  excludes : List FailureType
deriving DecidableEq, Repr

namespace AttemptSettings

def default : AttemptSettings := ⟨3, [], [], []⟩

instance : Inhabited AttemptSettings := ⟨default⟩

def effectiveIncludes (s : AttemptSettings) : List FailureType :=
  if s.legacyIncludes.isEmpty then s.includes else s.legacyIncludes

end AttemptSettings

structure RetrySettings extends AttemptSettings where
  /-- Whether attempts are counted across calls with the same key rather than within one call. -/
  stateful : Bool
  /-- A registered interceptor to use instead. -/
  interceptor : Option String
  backoff : BackoffSettings
deriving BEq, Repr

namespace RetrySettings

def default : RetrySettings := ⟨AttemptSettings.default, false, none, BackoffSettings.default⟩

instance : Inhabited RetrySettings := ⟨default⟩

def interceptorName (s : RetrySettings) : Option String := s.interceptor.bind Text.nonBlank

end RetrySettings

structure CircuitSettings extends AttemptSettings where
  /-- The window in which using up the attempts opens the circuit. -/
  openTimeout : Duration
  /-- The time after which an open circuit closes. -/
  resetTimeout : Duration
  label : Option String
deriving DecidableEq, Repr

namespace CircuitSettings

/-- Three failures within five seconds open the circuit for twenty seconds. -/
def default : CircuitSettings :=
  ⟨AttemptSettings.default, Duration.ofMillis 5000, Duration.ofMillis 20000, none⟩

instance : Inhabited CircuitSettings := ⟨default⟩

def labelName (s : CircuitSettings) : Option String := s.label.bind Text.nonBlank

end CircuitSettings

structure SettingsSource where
  retry : Method → Option RetrySettings
  circuit : Method → Option CircuitSettings

end CallGuard
