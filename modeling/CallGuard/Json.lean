/-! # JSON values: what calls take as arguments and return

A number is an integer or a binary64 number; `1` and `1.0` are different values. An object lists
its members by increasing name, which is the order of their UTF-8 bytes, and has no name twice:
`Json.object` makes one from any list of members. -/

namespace CallGuard

inductive Number where
  | int (n : Int)
  /-- A finite binary64 number by its bits. -/
  | float (bits : UInt64)
deriving DecidableEq, Repr, Inhabited

inductive Json where
  | null
  | bool (b : Bool)
  | num (n : Number)
  | str (s : String)
  | arr (items : List Json)
  | obj (members : List (String × Json))
deriving Inhabited

namespace Json

mutual

/-- Whether two values are the same; floating-point numbers by their bits. -/
def same : Json → Json → Bool
  | .null, .null => true
  | .bool a, .bool b => a == b
  | .num a, .num b => a == b
  | .str a, .str b => a == b
  | .arr as, .arr bs => sameItems as bs
  | .obj as, .obj bs => sameMembers as bs
  | _, _ => false

def sameItems : List Json → List Json → Bool
  | [], [] => true
  | a :: as, b :: bs => same a b && sameItems as bs
  | _, _ => false

def sameMembers : List (String × Json) → List (String × Json) → Bool
  | [], [] => true
  | (n, a) :: as, (m, b) :: bs => n == m && same a b && sameMembers as bs
  | _, _ => false

end

instance : BEq Json := ⟨same⟩

def nat (n : Nat) : Json := .num (.int n)

/-- Places a member by its name; one of the same name is replaced. -/
def insertMember (name : String) (value : Json) : List (String × Json) → List (String × Json)
  | [] => [(name, value)]
  | (n, v) :: rest =>
    if name < n then (name, value) :: (n, v) :: rest
    else if n < name then (n, v) :: insertMember name value rest
    else (name, value) :: rest

/-- The object with the given members, the last one of a name counting. -/
def object (members : List (String × Json)) : Json :=
  .obj (members.foldl (fun sorted m => insertMember m.1 m.2 sorted) [])

def str? : Json → Option String
  | .str s => some s
  | _ => none

def isTrue : Json → Bool
  | .bool b => b
  | _ => false

def member? (name : String) : Json → Option Json
  | .obj members => members.lookup name
  | _ => none

end Json

end CallGuard
