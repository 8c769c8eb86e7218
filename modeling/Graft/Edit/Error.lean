import Graft.Source.Program
/-!
# Why an edit fails

Each failure is a cause; `EditError.message?` gives its wording. An edit that meets a node it does not apply
to names the operation, the type of the node and an `Obstacle`.
-/

namespace Graft

/-- What keeps an operation from a node. -/
inductive Obstacle where
  | listField (field : String)
  | emptyField (field : String)
  | valueField (field : String)
  | notAList (field : String)
  | noElement (field : String) (index : Nat)
  | unknownField (field : String) (available : List String) (suggestion : Option String)
  | noParent
  | unrecordedParent
  | expressionBody
  | noStatements
  | parentWithoutStatements (type : String)
  | notInParent
  | notAFunction
  | notAnArrow (type : String)
  | parameterCount (found expected : Nat)
  | firstParameter
  | needsObject
  | updateValue (code : String)
  | notSettable
  | setValue (code : String)
  | noCriterion
  | noValue
  deriving DecidableEq, Inhabited

namespace Obstacle

def message : Obstacle → String
  | .listField f => "field '" ++ f ++ "' is a list; an index is required"
  | .emptyField f => "field '" ++ f ++ "' is empty"
  | .valueField f => "field '" ++ f ++ "' holds a value, not a node"
  | .notAList f => "field '" ++ f ++ "' is not a list"
  | .noElement f i => "field '" ++ f ++ "' has no element at index " ++ toString i
  | .unknownField f _ (some name) => "no field '" ++ f ++ "'; did you mean '" ++ name ++ "'?"
  | .unknownField f available none => "no field '" ++ f ++ "'; available: " ++ ", ".intercalate available
  | .noParent => "no parent was recorded for this node"
  | .unrecordedParent => "node has no recorded parent"
  | .expressionBody => "function has an expression body"
  | .noStatements => "node has no statement list"
  | .parentWithoutStatements t => "parent " ++ t ++ " has no statement list"
  | .notInParent => "node is not in its parent's statement list"
  | .notAFunction => "node is not a function"
  | .notAnArrow t => "wrapper must be an arrow function, got " ++ t
  | .parameterCount found expected =>
    "wrapper takes " ++ toString found ++ " parameter(s), expected " ++ toString expected
  | .firstParameter => "first wrapper parameter must be a plain identifier"
  | .needsObject => "update needs an object literal"
  | .updateValue code => "update value must be an object, got `" ++ code ++ "`"
  | .notSettable => "set applies to variable declarators, properties, object literals and literals"
  | .setValue code => "value must be an object, got `" ++ code ++ "`"
  | .noCriterion => "step has neither 'find' nor 'raw'"
  | .noValue => "no 'value' or 'code' given"

end Obstacle

/-- The operations that depend on the node they meet. -/
inductive Operation where
  | gotoChild | gotoParent | insert | wrap | update | set | runStep | change
  deriving DecidableEq, Inhabited

def Operation.name : Operation → String
  | .gotoChild => "goto child"
  | .gotoParent => "goto parent"
  | .insert => "insert"
  | .wrap => "wrap"
  | .update => "update"
  | .set => "set"
  | .runStep => "run step"
  | .change => "change"

inductive EditError where
  | matchCount (what : String) (expected found : Nat)
  | precondition (operation : Operation) (nodeType : String) (obstacle : Obstacle)
  | fragment (cause : Source.SyntaxError)
  deriving DecidableEq, Inhabited

namespace EditError

def message? : EditError → Option String
  | .matchCount what expected found =>
    some (what ++ " matched " ++ toString found ++ " time(s), expected " ++ toString expected)
  | .precondition operation nodeType obstacle =>
    some ("cannot " ++ operation.name ++ " on " ++ nodeType ++ ": " ++ obstacle.message)
  | .fragment _ => none

end EditError

/-- An expected number of matches, if one is given, must be met. -/
def checkCount (what : String) (expected : Option Nat) (found : Nat) : Except EditError Unit :=
  match expected with
  | some n => if n = found then .ok () else .error (.matchCount what n found)
  | none => .ok ()

end Graft
