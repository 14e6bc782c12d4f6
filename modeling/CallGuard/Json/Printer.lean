import CallGuard.Json
import CallGuard.Binary64.Shortest
/-! # The compact text of JSON values

No white space is written. Strings escape the quote, the backslash and the control characters below
the space, nothing else, so a quote or a backslash stands outside a string only as its delimiter.
Floating-point numbers are written with the fewest digits that read back. -/

namespace CallGuard.Json

/-- Floating-point numbers from 0.00001 up to below 1e16 are written positionally, always with a
fraction; others with an exponent that carries its sign. A tie goes to the even digit. -/
def floatLayout : Binary64.Layout := ⟨.even, -5, 15, ['+']⟩

def intText (n : Int) : List Char :=
  if n < 0 then '-' :: Nat.toDigits 10 n.natAbs else Nat.toDigits 10 n.natAbs

def numberText : Number → List Char
  | .int n => intText n
  | .float bits => floatLayout.text bits

def escapeChar (c : Char) : List Char :=
  if c = '"' then ['\\', '"']
  else if c = '\\' then ['\\', '\\']
  else if 0x20 ≤ c.toNat then [c]
  else if c = '\n' then ['\\', 'n']
  else if c = '\t' then ['\\', 't']
  else if c = '\r' then ['\\', 'r']
  else if c.toNat = 0x08 then ['\\', 'b']
  else if c.toNat = 0x0C then ['\\', 'f']
  else '\\' :: 'u' :: Binary64.hexDigits 4 c.toNat

def quote (cs : List Char) : List Char := '"' :: (cs.flatMap escapeChar ++ ['"'])

def commaSeparated : List (List Char) → List Char
  | [] => []
  | [piece] => piece
  | piece :: rest => piece ++ ',' :: commaSeparated rest

mutual

def render : Json → List Char
  | .null => ['n', 'u', 'l', 'l']
  | .bool true => ['t', 'r', 'u', 'e']
  | .bool false => ['f', 'a', 'l', 's', 'e']
  | .num n => numberText n
  | .str s => quote s.toList
  | .arr items => '[' :: (commaSeparated (renderItems items) ++ [']'])
  | .obj members => '{' :: (commaSeparated (renderMembers members) ++ ['}'])

def renderItems : List Json → List (List Char)
  | [] => []
  | item :: rest => render item :: renderItems rest

def renderMembers : List (String × Json) → List (List Char)
  | [] => []
  | (name, value) :: rest => (quote name.toList ++ ':' :: render value) :: renderMembers rest

end

def compact (j : Json) : String := String.ofList j.render

instance : ToString Json := ⟨compact⟩

end CallGuard.Json
