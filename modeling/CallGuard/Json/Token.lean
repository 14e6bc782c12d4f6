import CallGuard.Json
import CallGuard.Binary64.Decimal
/-! # The lexical part of reading JSON: characters to tokens

One pass over the characters with a small state: between tokens, in a word (a literal or a
numeral), or inside quotes. A backslash shields the character after it from ending the string;
what stands between the quotes is decoded when the string is complete. -/

namespace CallGuard.Json

inductive Token where
  | openBrace
  | closeBrace
  | openBracket
  | closeBracket
  | colon
  | comma
  | scalar (value : Json)
deriving Inhabited

def hexDigit? (c : Char) : Option Nat :=
  if '0' ≤ c ∧ c ≤ '9' then some (c.toNat - '0'.toNat)
  else if 'a' ≤ c ∧ c ≤ 'f' then some (c.toNat - 'a'.toNat + 10)
  else if 'A' ≤ c ∧ c ≤ 'F' then some (c.toNat - 'A'.toNat + 10)
  else none

def codeUnit? (a b c d : Char) : Option Nat := do
  return (((← hexDigit? a) * 16 + (← hexDigit? b)) * 16 + (← hexDigit? c)) * 16 + (← hexDigit? d)

def shortEscape? : Char → Option Char
  | '"' => some '"'
  | '\\' => some '\\'
  | '/' => some '/'
  | 'b' => some '\x08'
  | 'f' => some '\x0c'
  | 'n' => some '\n'
  | 'r' => some '\r'
  | 't' => some '\t'
  | _ => none

/-- Resolves the escapes of a string. A code unit of the upper surrogate range has to be followed by
one of the lower range; together they write one character. -/
def unescape : List Char → Option (List Char)
  | [] => some []
  | '\\' :: 'u' :: a :: b :: c :: d :: rest => do
    let unit ← codeUnit? a b c d
    if 0xD800 ≤ unit ∧ unit < 0xDC00 then
      match rest with
      | '\\' :: 'u' :: e :: f :: g :: h :: rest' =>
        let low ← codeUnit? e f g h
        if 0xDC00 ≤ low ∧ low < 0xE000 then
          return Char.ofNat (0x10000 + (unit - 0xD800) * 0x400 + (low - 0xDC00)) ::
            (← unescape rest')
        else none
      | _ => none
    else if 0xDC00 ≤ unit ∧ unit < 0xE000 then none
    else return Char.ofNat unit :: (← unescape rest)
  | '\\' :: c :: rest => do return (← shortEscape? c) :: (← unescape rest)
  | '\\' :: [] => none
  | c :: rest => do return c :: (← unescape rest)

def digitsValue (cs : List Char) : Nat := cs.foldl (fun v c => 10 * v + (c.toNat - '0'.toNat)) 0

/-- Appends decimal digits to a significand as long as 64 bits hold it. With it comes the number of
digits that are left from the first one that does not fit. -/
def appendDigits (m : Nat) : List Char → Nat × Nat
  | [] => (m, 0)
  | c :: cs =>
    let longer := 10 * m + (c.toNat - '0'.toNat)
    if longer < UInt64.size then appendDigits longer cs else (m, cs.length + 1)

def exponentPart? : List Char → Option Int
  | [] => some 0
  | e :: cs =>
    if e = 'e' ∨ e = 'E' then
      let (negative, ds) := match cs with
        | '-' :: ds => (true, ds)
        | '+' :: ds => (false, ds)
        | ds => (false, ds)
      if ds.isEmpty ∨ ¬ ds.all Char.isDigit then none
      else some (if negative then -(digitsValue ds : Int) else digitsValue ds)
    else none

/-- A binary64 number from a decimal significand and exponent; a numeral past the largest finite
number is refused. -/
def floatNumber? (negative : Bool) (m : Nat) (e : Int) : Option Number :=
  let bits := Binary64.ofDecimal negative m e
  if Binary64.magnitude bits < Binary64.infinityBits then some (.float bits) else none

/-- An integer numeral denotes an integer where 64 bits hold it; signed zero, every larger integer
and every numeral with a fraction or an exponent denote binary64 numbers. Of a larger integer the
digits that are left count as a power of ten. -/
def integerNumber? (negative : Bool) (m left : Nat) : Option Number :=
  if left = 0 ∧ ¬ negative then some (.int m)
  else if left = 0 ∧ 0 < m ∧ m ≤ UInt64.size / 2 then some (.int (-(m : Int)))
  else floatNumber? negative m left

/-- Reads a numeral. The digits of a significand that are left raise the exponent where they stand
before the point; after it they are dropped. -/
def number? (cs : List Char) : Option Number := do
  let (negative, body) := match cs with
    | '-' :: rest => (true, rest)
    | rest => (false, rest)
  let whole := body.takeWhile Char.isDigit
  if whole.isEmpty then none
  let (m, left) := appendDigits 0 whole
  match body.dropWhile Char.isDigit with
  | [] => integerNumber? negative m left
  | '.' :: rest =>
    let places := rest.takeWhile Char.isDigit
    if places.isEmpty then none
    let (m, dropped) := appendDigits m places
    let e ← exponentPart? (rest.dropWhile Char.isDigit)
    floatNumber? negative m (e + left - (places.length - dropped : Nat))
  | rest => floatNumber? negative m ((← exponentPart? rest) + left)

def word? (cs : List Char) : Option Json :=
  if cs = ['n', 'u', 'l', 'l'] then some .null
  else if cs = ['t', 'r', 'u', 'e'] then some (.bool true)
  else if cs = ['f', 'a', 'l', 's', 'e'] then some (.bool false)
  else (number? cs).map .num

def punctuation? : Char → Option Token
  | '{' => some .openBrace
  | '}' => some .closeBrace
  | '[' => some .openBracket
  | ']' => some .closeBracket
  | ':' => some .colon
  | ',' => some .comma
  | _ => none

def isSpace (c : Char) : Bool := c == ' ' || c == '\n' || c == '\t' || c == '\r'

/-- Where the reader stands; collected characters are in reverse. -/
inductive LexState where
  | between
  | word (collected : List Char)
  | quoted (collected : List Char)
  | shielded (collected : List Char)

/-- Reads a character that stands outside words and strings. -/
def lexOutside (found : List Token) (c : Char) : LexState × List Token :=
  match punctuation? c with
  | some t => (.between, t :: found)
  | none =>
    if isSpace c then (.between, found)
    else if c = '"' then (.quoted [], found)
    else (.word [c], found)

/-- Reads one character; the tokens found so far are in reverse. -/
def lexStep (c : Char) : LexState × List Token → Option (LexState × List Token)
  | (.between, found) => some (lexOutside found c)
  | (.word cs, found) =>
    if isSpace c || c == '"' || (punctuation? c).isSome then do
      let value ← word? cs.reverse
      return lexOutside (.scalar value :: found) c
    else some (.word (c :: cs), found)
  | (.quoted cs, found) =>
    if c = '"' then do
      let text ← unescape cs.reverse
      return (.between, .scalar (.str (String.ofList text)) :: found)
    else if c = '\\' then some (.shielded (c :: cs), found)
    else some (.quoted (c :: cs), found)
  | (.shielded cs, found) => some (.quoted (c :: cs), found)

def tokens? (cs : List Char) : Option (List Token) := do
  match ← cs.foldlM (fun s c => lexStep c s) (LexState.between, []) with
  | (.between, found) => return found.reverse
  | (.word rest, found) => return (.scalar (← word? rest.reverse) :: found).reverse
  | _ => none

end CallGuard.Json
