import Graft.Edit.Editor
import Graft.Json.Record
/-!
# Steps and actions

A step searches below the cursor, by a specification or by a raw pattern, and runs its actions on every
match. An action is an edit, a move, or a step of its own inside the match. In JSON a step is a record that
refuses unknown members, and an action is tagged with its `op`.
-/

namespace Graft

mutual
inductive Action where
  | insert (position : InsertPosition) (code : String)
  | wrap (code : String)
  | change (method : ChangeMethod) (value : Option Json) (code : Option String)
  | gotoChild (field : String) (index : Option Nat)
  | gotoParent
  | find (step : Step)

inductive Step where
  | mk (find : Option MatchSpec) (raw : Option Json) (expected : Option Nat) (actions : List Action)
end

namespace Step

def find : Step → Option MatchSpec
  | .mk find _ _ _ => find

def raw : Step → Option Json
  | .mk _ raw _ _ => raw

/-- The number of matches there have to be. -/
def expected : Step → Option Nat
  | .mk _ _ expected _ => expected

def actions : Step → List Action
  | .mk _ _ _ actions => actions

def fieldNames : List String := ["find", "raw", "expected_matches", "actions"]

end Step

namespace Action

def op : Action → String
  | .insert .. => "insert"
  | .wrap _ => "wrap"
  | .change .. => "change"
  | .gotoChild .. => "goto-child"
  | .gotoParent => "goto-parent"
  | .find _ => "find"

/-- The fields of the action with this `op`. -/
def fieldsOf (op : String) : Option (List String) :=
  match op with
  | "insert" => some ["position", "code"]
  | "wrap" => some ["code"]
  | "change" => some ["method", "value", "code"]
  | "goto-child" => some ["field", "index"]
  | "goto-parent" => some []
  | "find" => some Step.fieldNames
  | _ => none

/-- Builds an action, the step of a `find` having been read already. -/
def build (op : String) (members : Json.Members) (step : Option Step) : Option Action :=
  let text (field : String) : Option String := (members.lookup field).bind Json.string?
  match op with
  | "insert" => do
    return .insert (← InsertPosition.ofWord? (← (← members.lookup "position").word?)) (← text "code")
  | "wrap" => do return .wrap (← text "code")
  | "change" => do
    return .change (← ChangeMethod.ofWord? (← (← members.lookup "method").word?))
      (← Json.optional? (some ∘ Json.finite) (members.lookup "value"))
      (← Json.optional? Json.string? (members.lookup "code"))
  | "goto-child" => do return .gotoChild (← text "field") (← Json.optional? Json.count? (members.lookup "index"))
  | "goto-parent" => some .gotoParent
  | "find" => do return .find (← step)
  | _ => none

end Action

namespace Step

/-- Builds a step from its members. -/
def build (members : Json.Members) (action : Json → Option Action) : Option Step := do
  if !Json.onlyFields fieldNames members then none
  let actions (j : Json) : Option (List Action) :=
    match j with
    | .array items => items.mapM action
    | _ => none
  return .mk (← Json.optional? MatchSpec.ofJson? (members.lookup "find"))
    (← Json.optional? (some ∘ Json.finite) (members.lookup "raw"))
    (← Json.optional? Json.count? (members.lookup "expected_matches"))
    (← Json.withDefault [] actions (members.lookup "actions"))

mutual
/-- The step with these members, its actions read to a depth of nested steps. -/
def ofMembersWithin : Nat → Json.Members → Option Step
  | 0, _ => none
  | depth + 1, members => build members (actionWithin depth)

/-- The action that a JSON value holds, read to a depth of nested steps. -/
def actionWithin : Nat → Json → Option Action
  | 0, _ => none
  | depth + 1, j => do
    let (op, members) ← Json.tagged? "op" Action.fieldsOf j
    Action.build op members (ofMembersWithin depth members)
end

/-- The step that a JSON value holds, if it holds one. -/
def ofJson? (j : Json) : Option Step := do ofMembersWithin (2 * j.nesting + 2) (← Json.record? fieldNames j)

/-- The steps of a list. -/
def listOfJson? : Json → Option (List Step)
  | .array items => items.mapM ofJson?
  | _ => none

end Step
end Graft
