import Graft.Number.Shortest
/-!
# JSON values

Objects keep their members in the order of their keys, one member per key (`Json.ofMembers`). A
number written without fraction and exponent is an integer when it fits 64 bits, signed or unsigned;
any other number is a double.
-/

namespace Graft

inductive Json where
  | null
  | bool (b : Bool)
  | int (n : Int)
  | double (x : Double)
  | string (s : String)
  | array (items : List Json)
  | object (members : List (String × Json))
  deriving Inhabited

namespace Json

/-- Puts a member in its place by key; a later member replaces an earlier one of the same key. -/
def insertMember (key : String) (value : Json) : List (String × Json) → List (String × Json)
  | [] => [(key, value)]
  | (k, v) :: rest =>
    if key < k then (key, value) :: (k, v) :: rest
    else if key = k then (key, value) :: rest
    else (k, v) :: insertMember key value rest

def ofMembers (members : List (String × Json)) : Json :=
  .object (members.foldl (fun acc m => insertMember m.1 m.2 acc) [])

def member? (key : String) : Json → Option Json
  | .object members => members.lookup key
  | _ => none

def string? : Json → Option String
  | .string s => some s
  | _ => none

/-- The number a JSON number denotes. -/
def number? : Json → Option Double
  | .int n => some (Double.ofInt n)
  | .double x => some x
  | _ => none

/-- Does an integer have a JSON form of its own? -/
def fitsInteger (n : Int) : Bool := -(twoTo 63) ≤ n && n < twoTo 64

/-! ## Text -/

/-- The escape of a character inside quotes, if it needs one. -/
def escape? (c : Char) : Option (List Char) :=
  if c = '"' then some ['\\', '"']
  else if c = '\\' then some ['\\', '\\']
  else if c = '\n' then some ['\\', 'n']
  else if c = '\r' then some ['\\', 'r']
  else if c = '\t' then some ['\\', 't']
  else if c.toNat = 8 then some ['\\', 'b']
  else if c.toNat = 12 then some ['\\', 'f']
  else if c.toNat < 32 then
    some ['\\', 'u', '0', '0', Nat.digitChar (c.toNat / 16), Nat.digitChar (c.toNat % 16)]
  else none

def escapeChars : List Char → List Char
  | [] => []
  | c :: rest => (escape? c).getD [c] ++ escapeChars rest

/-- A string between double quotes. -/
def quote (s : String) : String := String.ofList ('"' :: escapeChars s.toList ++ ['"'])

mutual
/-- Text without any blank. -/
def compact : Json → String
  | .null => "null"
  | .bool b => if b then "true" else "false"
  | .int n => toString n
  | .double x => x.toJson
  | .string s => quote s
  | .array items => "[" ++ compactItems items ++ "]"
  | .object members => "\x7b" ++ compactMembers members ++ "\x7d"

def compactItems : List Json → String
  | [] => ""
  | [j] => compact j
  | j :: rest => compact j ++ "," ++ compactItems rest

def compactMembers : List (String × Json) → String
  | [] => ""
  | [(k, v)] => quote k ++ ":" ++ compact v
  | (k, v) :: rest => quote k ++ ":" ++ compact v ++ "," ++ compactMembers rest
end

/-! ## Equality -/

mutual
/-- Equality of values; an integer and a double differ even when they denote one number. -/
def same : Json → Json → Bool
  | .null, .null => true
  | .bool a, .bool b => a == b
  | .int a, .int b => a == b
  | .double a, .double b => a.eqv b
  | .string a, .string b => a == b
  | .array a, .array b => sameItems a b
  | .object a, .object b => sameMembers a b
  | _, _ => false

def sameItems : List Json → List Json → Bool
  | [], [] => true
  | a :: as, b :: bs => same a b && sameItems as bs
  | _, _ => false

def sameMembers : List (String × Json) → List (String × Json) → Bool
  | [], [] => true
  | (k, a) :: as, (l, b) :: bs => k == l && same a b && sameMembers as bs
  | _, _ => false
end

end Json
end Graft
