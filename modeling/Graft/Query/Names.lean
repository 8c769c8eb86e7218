import Graft.Syntax.Store
import Graft.Print.Level
import Graft.Number.Shortest
import Graft.Json.Basic
/-!
# Names and constants

What a node is called, from its key or from where it sits, and the constant that an expression stands for.
A key names itself as an identifier, a string or a number; a computed key only as a string or a number.
-/

namespace Graft

/-- The text of a number as a key: an integer below `10^21` in magnitude as one, saturated at 64 bits. -/
def Double.keyText (x : Double) : String :=
  match x.toInt? with
  | some n =>
    if n.natAbs < tenTo 21 then toString (max (-(twoTo 63 : Int)) (min n (twoTo 63 - 1))) else x.toPlain
  | none => x.toPlain

/-- Strict equality with a JSON value. -/
def LiteralValue.eqJson : LiteralValue → Json → Bool
  | .string a, .string b => a = b
  | .number a, j => match j.number? with
    | some b => b.eqv a
    | none => false
  | .boolean a, .bool b => a = b
  | .null, .null => true
  | _, _ => false

namespace Store

def identifierName? (s : Store) (id : NodeId) : Option String := (s.get id).identifierName?

def func? (s : Store) (id : NodeId) : Option (Func NodeId) := (s.get id).func?

def isObject (s : Store) (id : NodeId) : Bool := (s.get id).isObjectExpression

/-! ## Keys -/

def keyName? (s : Store) (key : NodeId) (computed : Bool) : Option String :=
  match s.get key with
  | .identifier name => if computed then none else some name
  | .literal (.string text) _ => some text
  | .literal (.number x) _ => some x.keyText
  | _ => none

/-- The key of a member of an object or a class. -/
def memberKey? (s : Store) (member : NodeId) : Option String :=
  match s.get member with
  | .property key _ _ computed _ _ => s.keyName? key computed
  | .methodDefinition key _ _ computed _ => s.keyName? key computed
  | .propertyDefinition key _ computed _ => s.keyName? key computed
  | _ => none

/-- The members of an object literal or pattern. -/
def members (s : Store) (object : NodeId) : List NodeId :=
  match s.get object with
  | .objectExpression properties => properties
  | .objectPattern properties => properties
  | _ => []

/-- The first member with this key. -/
def findProperty? (s : Store) (object : NodeId) (name : String) : Option NodeId :=
  (s.members object).find? fun p => s.memberKey? p = some name

def propertyValue? (s : Store) (property : NodeId) : Option NodeId :=
  match s.get property with
  | .property _ value _ _ _ _ => some value
  | _ => none

/-! ## Names from the place -/

/-- The name that a function or an object gets from its parent, if that is a place that names. -/
def contextName? (s : Store) (parent : Option NodeId) : Option String := do
  let parent ← parent
  match s.get parent with
  | .assignmentExpression _ left _ =>
    match s.get left with
    | .memberExpression _ key computed _ => s.keyName? key computed
    | .identifier name => some name
    | _ => none
  | .variableDeclarator id _ => s.identifierName? id
  | .assignmentPattern left _ => s.identifierName? left
  | .property .. | .methodDefinition .. | .propertyDefinition .. => s.memberKey? parent
  | _ => none

/-- The name a parameter goes by. -/
def parameterName? (s : Store) (param : NodeId) : Option String :=
  match s.get param with
  | .identifier name => some name
  | .assignmentPattern left _ => s.identifierName? left
  | .restElement argument => s.identifierName? argument
  | _ => none

/-- The name of a called function: `f` for `f()` and for `o.f()`. -/
def calleeWithin (s : Store) : Nat → NodeId → Option String
  | 0, _ => none
  | depth + 1, callee =>
    match s.get callee with
    | .identifier name => some name
    | .chainExpression e => calleeWithin s depth e
    | .memberExpression _ key computed _ =>
      if computed then
        match s.get key with
        | .literal (.string text) _ => some text
        | _ => none
      else s.identifierName? key
    | _ => none

def calleeName? (s : Store) (callee : NodeId) : Option String := s.calleeWithin (s.size + 1) callee

/-! ## Constants -/

/-- The constant that an expression stands for, the usual short spellings included. -/
def constant? (s : Store) (id : NodeId) : Option LiteralValue :=
  match s.get id with
  | .literal value _ => some value
  | .unaryExpression operator argument =>
    match operator, s.get argument with
    | "-", .literal (.number x) _ => some (.number x.neg)
    | "+", .literal (.number x) _ => some (.number x)
    | "!", .literal (.number x) _ => some (.boolean (x.magnitude = 0))
    | "!", .literal (.boolean b) _ => some (.boolean !b)
    | "void", .literal (.number x) _ => if x.magnitude = 0 then some .null else none
    | _, _ => none
  | _ => none

end Store
end Graft
