import Graft.Json.Record
/-!
# Match specifications

A `MatchSpec` describes the node to look for. It is read from a JSON object whose `category` says which
kind; a key that the kind does not know is refused, and so is a value of the wrong type.
-/

namespace Graft

/-- The keys an object must have: a list of names, a table with conditions on the values of its keys, or
anything else, which asks for nothing more. -/
inductive KeySpec where
  | names (names : List String)
  | nested (table : List (String × KeySpec))
  | present (value : Json)
  deriving Inhabited

/-- The node to look for. An argument of a call without condition is `none`. -/
inductive MatchSpec where
  | function (name : Option String) (anonymous : Option Bool) (params : Option (List String))
  | object (name : Option String) (anonymous : Option Bool) (keys : Option KeySpec)
      (values : Option (List (String × Json)))
  | property (name : String)
  | identifier (name : String)
  | literal (value : Json)
  | call (name : Option String) (params : Option (List (Option MatchSpec)))
  deriving Inhabited

namespace MatchSpec

def category : MatchSpec → String
  | .function .. => "function"
  | .object .. => "object"
  | .property _ => "property"
  | .identifier _ => "identifier"
  | .literal _ => "literal"
  | .call .. => "call"

/-- A short description for messages. -/
def describe (spec : MatchSpec) : String :=
  let withName (name : String) : String := spec.category ++ " '" ++ name ++ "'"
  match spec with
  | .function (some name) _ _ => withName name
  | .object (some name) _ _ _ => withName name
  | .call (some name) _ => withName name
  | .property name => withName name
  | .identifier name => withName name
  | .literal value => "literal " ++ value.compact
  | _ => spec.category

end MatchSpec

/-! ## Reading -/

mutual
/-- Keys are tried as a list of strings, then as a table, then as anything. -/
def KeySpec.ofJson : Json → KeySpec
  | .array items =>
    match items.mapM Json.string? with
    | some keys => .names keys
    | none => .present (Json.array items).finite
  | .object members => .nested (KeySpec.ofMembers members)
  | j => .present j.finite

def KeySpec.ofMembers : List (String × Json) → List (String × KeySpec)
  | [] => []
  | (key, j) :: rest => (key, KeySpec.ofJson j) :: KeySpec.ofMembers rest
end

namespace MatchSpec

/-- The fields of each category in order. -/
def fieldsOf (category : String) : Option (List String) :=
  match category with
  | "function" => some ["name", "anonymous", "params"]
  | "object" => some ["name", "anonymous", "keys", "values"]
  | "property" => some ["name"]
  | "identifier" => some ["name"]
  | "literal" => some ["value"]
  | "call" => some ["name", "params"]
  | _ => none

/-- Builds a specification, the arguments of a call having been read already. -/
def build (category : String) (members : Json.Members) (arguments : Option (Option (List (Option MatchSpec)))) :
    Option MatchSpec := do
  let fields ← fieldsOf category
  if !Json.onlyFields fields members then none
  let name? := Json.optional? Json.string? (members.lookup "name")
  let anonymous? := Json.optional? Json.bool? (members.lookup "anonymous")
  match category with
  | "function" =>
    return .function (← name?) (← anonymous?) (← Json.optional? Json.strings? (members.lookup "params"))
  | "object" =>
    return .object (← name?) (← anonymous?) (← Json.optional? (some ∘ KeySpec.ofJson) (members.lookup "keys"))
      (← Json.optional? Json.members? (members.lookup "values"))
  | "property" => return .property (← (← members.lookup "name").string?)
  | "identifier" => return .identifier (← (← members.lookup "name").string?)
  | "literal" => return .literal (← members.lookup "value").finite
  | _ => return .call (← name?) (← arguments)

/-- Does a JSON value claim to be a specification? -/
def claims : Json → Bool
  | .object members => (members.lookup "category").isSome
  | _ => false

/-- The specification that a JSON value holds, read to a depth of nested arguments. -/
def ofJsonWithin : Nat → Json → Option MatchSpec
  | 0, _ => none
  | depth + 1, j => do
    let (category, members) ← Json.tagged? "category" fieldsOf j
    let argument (j : Json) : Option (Option MatchSpec) := if claims j then some <$> ofJsonWithin depth j else some none
    let arguments := Json.optional? (fun j => match j with
        | .array items => items.mapM argument
        | _ => none) (members.lookup "params")
    build category members arguments

/-- The specification that a JSON value holds, if it holds one. -/
def ofJson? (j : Json) : Option MatchSpec := ofJsonWithin (j.nesting + 1) j

end MatchSpec
end Graft
