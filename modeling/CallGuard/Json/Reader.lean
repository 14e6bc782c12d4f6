import CallGuard.Json.Token
/-! # The grammar part of reading JSON: tokens to a value

One pass over the tokens with a stack of the arrays and objects that are still open, so the reader
recurses on its input alone. -/

namespace CallGuard.Json

/-- An array or object that is still open; what it holds is in reverse. -/
inductive OpenValue where
  | items (done : List Json)
  | members (done : List (String × Json)) (name : String)

inductive Expect where
  | value
  | itemOrEnd
  | name
  | nameOrEnd
  | colon
  | commaOrEnd
  /-- Nothing: the text is complete. -/
  | nothing (result : Json)

structure Reader where
  stack : List OpenValue
  expect : Expect

namespace Reader

def deliver (stack : List OpenValue) (value : Json) : Reader :=
  match stack with
  | [] => ⟨[], .nothing value⟩
  | .items done :: outer => ⟨.items (value :: done) :: outer, .commaOrEnd⟩
  | .members done name :: outer => ⟨.members ((name, value) :: done) name :: outer, .commaOrEnd⟩

def closeArray? : List OpenValue → Option Reader
  | .items done :: outer => some (deliver outer (.arr done.reverse))
  | _ => none

def closeObject? : List OpenValue → Option Reader
  | .members done _ :: outer => some (deliver outer (object done.reverse))
  | _ => none

def value? (stack : List OpenValue) : Token → Option Reader
  | .scalar v => some (deliver stack v)
  | .openBracket => some ⟨.items [] :: stack, .itemOrEnd⟩
  | .openBrace => some ⟨.members [] "" :: stack, .nameOrEnd⟩
  | _ => none

def name? : List OpenValue → Token → Option Reader
  | .members done _ :: outer, .scalar (.str s) => some ⟨.members done s :: outer, .colon⟩
  | _, _ => none

def step (r : Reader) (t : Token) : Option Reader :=
  match r.expect, t with
  | .value, t => value? r.stack t
  | .itemOrEnd, .closeBracket => closeArray? r.stack
  | .itemOrEnd, t => value? r.stack t
  | .name, t => name? r.stack t
  | .nameOrEnd, .closeBrace => closeObject? r.stack
  | .nameOrEnd, t => name? r.stack t
  | .colon, .colon => some { r with expect := .value }
  | .commaOrEnd, .closeBracket => closeArray? r.stack
  | .commaOrEnd, .closeBrace => closeObject? r.stack
  | .commaOrEnd, .comma =>
    match r.stack with
    | .items _ :: _ => some { r with expect := .value }
    | .members _ _ :: _ => some { r with expect := .name }
    | [] => none
  | _, _ => none

end Reader

def read? (text : String) : Option Json := do
  let tokens ← tokens? text.toList
  match (← tokens.foldlM Reader.step ⟨[], .value⟩).expect with
  | .nothing result => some result
  | _ => none

end CallGuard.Json
