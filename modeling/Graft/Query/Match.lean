import Graft.Query.Spec
import Graft.Query.Names
/-!
# Matching nodes

`Store.matches` tests one node against a specification, and `Store.contains` against a free JSON pattern:
every key of the pattern must be `type` or a field of the node, with a matching value. Fields that a
pattern does not mention count for nothing.
-/

namespace Graft
namespace Store

/-! ## Object literals -/

mutual
def hasKeys (s : Store) (object : NodeId) : KeySpec → Bool
  | .names names => names.all fun name => (s.findProperty? object name).isSome
  | .nested table => hasTable s object table
  | .present _ => true

def hasTable (s : Store) (object : NodeId) : List (String × KeySpec) → Bool
  | [] => true
  | (key, spec) :: rest =>
    (match s.findProperty? object key with
      | none => false
      | some property =>
        match spec with
        | .present _ => true
        | spec =>
          match s.propertyValue? property with
          | some value => s.isObject value && hasKeys s value spec
          | none => false)
      && hasTable s object rest
end

mutual
/-- Does an expression have a JSON value? Objects may have more members than the value. -/
def hasValue (s : Store) (value : NodeId) : Json → Bool
  | .object members => s.isObject value && hasValues s value members
  | expected =>
    match s.constant? value with
    | some actual => actual.eqJson expected
    | none => false

def hasValues (s : Store) (object : NodeId) : List (String × Json) → Bool
  | [] => true
  | (key, expected) :: rest =>
    (match (s.findProperty? object key).bind s.propertyValue? with
      | some value => hasValue s value expected
      | none => false)
      && hasValues s object rest
end

/-! ## Specifications -/

/-- Does a resolved name meet the conditions on it? -/
def nameMeets (resolved name : Option String) (anonymous : Option Bool) : Bool :=
  (name.isNone || resolved = name) &&
    match anonymous with
    | some a => resolved.isNone = a
    | none => true

mutual
/-- Does a node with this parent match? Arguments of a call have the call as their parent. -/
def matchesIn (s : Store) (node : NodeId) (parent : Option NodeId) : MatchSpec → Bool
  | .function name anonymous params =>
    match s.func? node with
    | none => false
    | some f =>
      (match params with
        | some expected => f.params.map s.parameterName? = expected.map some
        | none => true) &&
      ((name.isNone && anonymous.isNone) ||
        let own := f.id.bind s.identifierName?
        nameMeets (own.orElse fun _ => s.contextName? parent) name anonymous)
  | .object name anonymous keys values =>
    s.isObject node
      && (match keys with
          | some keys => s.hasKeys node keys
          | none => true)
      && (match values with
          | some values => s.hasValues node values
          | none => true)
      && ((name.isNone && anonymous.isNone) || nameMeets (s.contextName? parent) name anonymous)
  | .property name =>
    (match s.get node with
      | .property .. => true
      | _ => false) && s.memberKey? node = some name
  | .identifier name => s.identifierName? node = some name
  | .literal value =>
    match s.get node with
    | .literal actual _ => actual.eqJson value
    | _ => false
  | .call name params =>
    match s.get node with
    | .callExpression callee arguments _ =>
      (name.isNone || s.calleeName? callee = name) &&
        match params with
        | some params => argumentsMatch s node arguments params
        | none => true
    | _ => false

/-- As many arguments as conditions, each meeting its own. -/
def argumentsMatch (s : Store) (call : NodeId) : List NodeId → List (Option MatchSpec) → Bool
  | [], [] => true
  | _ :: arguments, none :: params => argumentsMatch s call arguments params
  | argument :: arguments, some spec :: params =>
    matchesIn s argument (some call) spec && argumentsMatch s call arguments params
  | _, _ => false
end

def «matches» (s : Store) (parents : Parents) (node : NodeId) (spec : MatchSpec) : Bool :=
  s.matchesIn node (parents.get? node) spec

/-! ## Patterns -/

mutual
/-- Does the node contain the pattern? Only an object is contained in a node. -/
def contains (s : Store) (node : NodeId) : Json → Bool
  | .object members => containsMembers s node members
  | _ => false

def containsMembers (s : Store) (node : NodeId) : List (String × Json) → Bool
  | [] => true
  | (key, want) :: rest =>
    (if key = "type" then want.string? = some (s.typeName node)
     else
       match (s.get node).field? key with
       | some f => fieldContains s f want
       | none => false)
      && containsMembers s node rest

def fieldContains (s : Store) : Field NodeId → Json → Bool
  | .node id, .object members => containsMembers s id members
  | .list ids, .array items => listContains s ids items
  | .holes slots, .array items => slotsContain s slots items
  | .text actual, .string want => actual = want
  | .number actual, want =>
    match want.number? with
    | some x => x.eqv actual
    | none => false
  | .flag actual, .bool want => actual = want
  | .absent, .null => true
  | _, _ => false

/-- The items are contained in the first elements of the list. -/
def listContains (s : Store) : List NodeId → List Json → Bool
  | _, [] => true
  | id :: ids, item :: items => contains s id item && listContains s ids items
  | [], _ :: _ => false

def slotsContain (s : Store) : List (Option NodeId) → List Json → Bool
  | _, [] => true
  | some id :: slots, item :: items => contains s id item && slotsContain s slots items
  | none :: slots, item :: items =>
    (match item with
      | .null => true
      | _ => false) && slotsContain s slots items
  | [], _ :: _ => false
end

/-! ## Searching -/

/-- Visits the nodes on a stack and all below them in document order. Children are linked to their parent
before they are looked at, and a match does not end the search below it. -/
def walk (s : Store) (accepts : Parents → NodeId → Bool) : Nat → List NodeId → Parents → List NodeId →
    List NodeId × Parents
  | 0, _, parents, found => (found.reverse, parents)
  | _ + 1, [], parents, found => (found.reverse, parents)
  | fuel + 1, id :: stack, parents, found =>
    let found := if accepts parents id then id :: found else found
    let children := s.children id
    walk s accepts fuel (children ++ stack) (parents.linkAll children id) found

/-- All nodes below one that are accepted, and the links after the search. -/
def search (s : Store) (parents : Parents) (node : NodeId) (accepts : Parents → NodeId → Bool) :
    List NodeId × Parents :=
  let children := s.children node
  s.walk accepts (s.size + 1) children (parents.linkAll children node) []

def findAll (s : Store) (parents : Parents) (node : NodeId) (spec : MatchSpec) : List NodeId × Parents :=
  s.search parents node fun parents id => s.matches parents id spec

def findPattern (s : Store) (parents : Parents) (node : NodeId) (pattern : Json) : List NodeId × Parents :=
  s.search parents node fun _ id => s.contains id pattern

end Store
end Graft
