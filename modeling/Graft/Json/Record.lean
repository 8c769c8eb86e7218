import Graft.Json.Basic
/-!
# Records in JSON

A record is read from an object by the names of its fields, or from an array by their order. A tagged
record has one more member, first in an array, that says which fields it has.
-/

namespace Graft
namespace Json

abbrev Members := List (String × Json)

/-- The members that are named by the fields in order; there may be fewer items than fields. -/
def positional (fields : List String) (items : List Json) : Option Members :=
  if fields.length < items.length then none else some (fields.zip items)

/-- The members of a record with these fields. -/
def record? (fields : List String) : Json → Option Members
  | .object members => some members
  | .array items => positional fields items
  | _ => none

/-- The tag of a tagged record and its other members. -/
def tagged? (tag : String) (fieldsOf : String → Option (List String)) : Json → Option (String × Members)
  | .object members => do
    let name ← (← members.lookup tag).string?
    some (name, members.filter fun m => m.1 ≠ tag)
  | .array (.string name :: items) => do some (name, ← positional (← fieldsOf name) items)
  | _ => none

/-- Every member belongs to a field. -/
def onlyFields (fields : List String) (members : Members) : Bool := members.all fun m => fields.contains m.1

/-! ## Values of fields -/

/-- An optional member: absent and null are none, a value of the wrong type is refused. -/
def optional? {α : Type} (convert : Json → Option α) : Option Json → Option (Option α)
  | none => some none
  | some .null => some none
  | some j => (convert j).map some

/-- A member that has a value of its own when absent, and is refused when null. -/
def withDefault {α : Type} (default : α) (convert : Json → Option α) : Option Json → Option α
  | none => some default
  | some j => convert j

def bool? : Json → Option Bool
  | .bool b => some b
  | _ => none

/-- A natural number of at most 64 bits. -/
def count? : Json → Option Nat
  | .int n => if 0 ≤ n then some n.toNat else none
  | _ => none

def strings? : Json → Option (List String)
  | .array items => items.mapM string?
  | _ => none

/-- One word of a fixed set: a string, or a member without content. -/
def word? : Json → Option String
  | .string w => some w
  | .object [(w, .null)] => some w
  | .object [(w, .object [])] => some w
  | _ => none

mutual
/-- The value with every number that is not finite as null. -/
def finite : Json → Json
  | .double x => if x.isFinite then .double x else .null
  | .array items => .array (finiteItems items)
  | .object members => .object (finiteMembers members)
  | j => j

def finiteItems : List Json → List Json
  | [] => []
  | j :: rest => finite j :: finiteItems rest

def finiteMembers : List (String × Json) → List (String × Json)
  | [] => []
  | (k, j) :: rest => (k, finite j) :: finiteMembers rest
end

def members? : Json → Option Members
  | .object members => some (finiteMembers members)
  | _ => none

/-! ## Nesting -/

mutual
def nesting : Json → Nat
  | .array items => nestingOfItems items + 1
  | .object members => nestingOfMembers members + 1
  | _ => 1

def nestingOfItems : List Json → Nat
  | [] => 0
  | j :: rest => max (nesting j) (nestingOfItems rest)

def nestingOfMembers : List (String × Json) → Nat
  | [] => 0
  | (_, j) :: rest => max (nesting j) (nestingOfMembers rest)
end

end Json
end Graft
