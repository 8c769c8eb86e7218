import Graft.Number.Double
/-!
# Syntax nodes

One layer of a JavaScript syntax tree, with children of any type: a `Node Tree` is the top of a tree,
a `Node NodeId` a slot of a store. Node and field names are those of ESTree. `Node.fields` is the one
place that knows each layout as data; children, field look-up and pattern matching follow from it.
-/

namespace Graft

/-- The value a literal stands for. -/
inductive LiteralValue where
  | string (s : String)
  | number (x : Double)
  | boolean (b : Bool)
  | null
  | regex (pattern flags : String)
  deriving DecidableEq, Inhabited

inductive VariableKind where
  | var | let | const
  deriving DecidableEq, Inhabited

inductive PropertyKind where
  | init | get | set
  deriving DecidableEq, Inhabited

inductive MethodKind where
  | constructor | method | get | set
  deriving DecidableEq, Inhabited

namespace VariableKind

def word : VariableKind → String
  | .var => "var"
  | .let => "let"
  | .const => "const"

/-- Any other word declares like `var`. -/
def ofWord (w : String) : VariableKind := if w = "let" then .let else if w = "const" then .const else .var

end VariableKind

namespace PropertyKind

def word : PropertyKind → String
  | .init => "init"
  | .get => "get"
  | .set => "set"

end PropertyKind

namespace MethodKind

def word : MethodKind → String
  | .constructor => "constructor"
  | .method => "method"
  | .get => "get"
  | .set => "set"

end MethodKind

/-- What function declarations, function expressions and arrows share. The body is a block or, in an
arrow, any expression. -/
structure Func (α : Type u) where
  id : Option α
  params : List α
  body : α
  isAsync : Bool
  generator : Bool
  deriving DecidableEq

structure ClassParts (α : Type u) where
  id : Option α
  superClass : Option α
  body : α
  deriving DecidableEq

/-- One node; `none` in a list of elements is an array hole. `verbatim` is source text that is kept
as written: template literals, module declarations, `yield` and the like. -/
inductive Node (α : Type u) where
  | program (body : List α)
  | expressionStatement (expression : α)
  | blockStatement (body : List α)
  | emptyStatement
  | returnStatement (argument : Option α)
  | ifStatement (test consequent : α) (alternate : Option α)
  | forStatement (init test update : Option α) (body : α)
  | forInStatement (left right body : α)
  | forOfStatement (left right body : α) (isAwait : Bool)
  | whileStatement (test body : α)
  | doWhileStatement (body test : α)
  | breakStatement (label : Option α)
  | continueStatement (label : Option α)
  | throwStatement (argument : α)
  | tryStatement (block : α) (handler finalizer : Option α)
  | catchClause (param : Option α) (body : α)
  | switchStatement (discriminant : α) (cases : List α)
  | switchCase (test : Option α) (consequent : List α)
  | labeledStatement (label body : α)
  | variableDeclaration (kind : VariableKind) (declarations : List α)
  | variableDeclarator (id : α) (init : Option α)
  | functionDeclaration (function : Func α)
  | classDeclaration (parts : ClassParts α)
  | classBody (body : List α)
  | methodDefinition (key value : α) (kind : MethodKind) (computed isStatic : Bool)
  | propertyDefinition (key : α) (value : Option α) (computed isStatic : Bool)
  | identifier (name : String)
  | privateIdentifier (name : String)
  | literal (value : LiteralValue) (raw : String)
  | thisExpression
  | super
  | arrayExpression (elements : List (Option α))
  | objectExpression (properties : List α)
  | property (key value : α) (kind : PropertyKind) (computed shorthand method : Bool)
  | functionExpression (function : Func α)
  | arrowFunctionExpression (function : Func α)
  | classExpression (parts : ClassParts α)
  | spreadElement (argument : α)
  | unaryExpression (operator : String) (argument : α)
  | updateExpression (operator : String) (isPrefix : Bool) (argument : α)
  | binaryExpression (operator : String) (left right : α)
  | logicalExpression (operator : String) (left right : α)
  | assignmentExpression (operator : String) (left right : α)
  | conditionalExpression (test consequent alternate : α)
  | callExpression (callee : α) (arguments : List α) (optional : Bool)
  | newExpression (callee : α) (arguments : List α)
  | memberExpression (object member : α) (computed optional : Bool)
  | chainExpression (expression : α)
  | sequenceExpression (expressions : List α)
  | awaitExpression (argument : α)
  | objectPattern (properties : List α)
  | arrayPattern (elements : List (Option α))
  | restElement (argument : α)
  | assignmentPattern (left right : α)
  | verbatim (text : String)
  deriving DecidableEq

/-- A named field of a node. -/
inductive Field (α : Type u) where
  | node (a : α)
  | list (as : List α)
  | holes (slots : List (Option α))
  | text (s : String)
  | number (x : Double)
  | flag (b : Bool)
  | absent

namespace Node

variable {α : Type u} {β : Type v}

/-- ESTree type name. -/
def typeName : Node α → String
  | .program .. => "Program"
  | .expressionStatement .. => "ExpressionStatement"
  | .blockStatement .. => "BlockStatement"
  | .emptyStatement => "EmptyStatement"
  | .returnStatement .. => "ReturnStatement"
  | .ifStatement .. => "IfStatement"
  | .forStatement .. => "ForStatement"
  | .forInStatement .. => "ForInStatement"
  | .forOfStatement .. => "ForOfStatement"
  | .whileStatement .. => "WhileStatement"
  | .doWhileStatement .. => "DoWhileStatement"
  | .breakStatement .. => "BreakStatement"
  | .continueStatement .. => "ContinueStatement"
  | .throwStatement .. => "ThrowStatement"
  | .tryStatement .. => "TryStatement"
  | .catchClause .. => "CatchClause"
  | .switchStatement .. => "SwitchStatement"
  | .switchCase .. => "SwitchCase"
  | .labeledStatement .. => "LabeledStatement"
  | .variableDeclaration .. => "VariableDeclaration"
  | .variableDeclarator .. => "VariableDeclarator"
  | .functionDeclaration .. => "FunctionDeclaration"
  | .classDeclaration .. => "ClassDeclaration"
  | .classBody .. => "ClassBody"
  | .methodDefinition .. => "MethodDefinition"
  | .propertyDefinition .. => "PropertyDefinition"
  | .identifier .. => "Identifier"
  | .privateIdentifier .. => "PrivateIdentifier"
  | .literal .. => "Literal"
  | .thisExpression => "ThisExpression"
  | .super => "Super"
  | .arrayExpression .. => "ArrayExpression"
  | .objectExpression .. => "ObjectExpression"
  | .property .. => "Property"
  | .functionExpression .. => "FunctionExpression"
  | .arrowFunctionExpression .. => "ArrowFunctionExpression"
  | .classExpression .. => "ClassExpression"
  | .spreadElement .. => "SpreadElement"
  | .unaryExpression .. => "UnaryExpression"
  | .updateExpression .. => "UpdateExpression"
  | .binaryExpression .. => "BinaryExpression"
  | .logicalExpression .. => "LogicalExpression"
  | .assignmentExpression .. => "AssignmentExpression"
  | .conditionalExpression .. => "ConditionalExpression"
  | .callExpression .. => "CallExpression"
  | .newExpression .. => "NewExpression"
  | .memberExpression .. => "MemberExpression"
  | .chainExpression .. => "ChainExpression"
  | .sequenceExpression .. => "SequenceExpression"
  | .awaitExpression .. => "AwaitExpression"
  | .objectPattern .. => "ObjectPattern"
  | .arrayPattern .. => "ArrayPattern"
  | .restElement .. => "RestElement"
  | .assignmentPattern .. => "AssignmentPattern"
  | .verbatim .. => "Verbatim"

/-- The type names of all nodes. -/
def typeNames : List String :=
  ["Program", "ExpressionStatement", "BlockStatement", "EmptyStatement", "ReturnStatement", "IfStatement",
   "ForStatement", "ForInStatement", "ForOfStatement", "WhileStatement", "DoWhileStatement",
   "BreakStatement", "ContinueStatement", "ThrowStatement", "TryStatement", "CatchClause",
   "SwitchStatement", "SwitchCase", "LabeledStatement", "VariableDeclaration", "VariableDeclarator",
   "FunctionDeclaration", "ClassDeclaration", "ClassBody", "MethodDefinition", "PropertyDefinition",
   "Identifier", "PrivateIdentifier", "Literal", "ThisExpression", "Super", "ArrayExpression",
   "ObjectExpression", "Property", "FunctionExpression", "ArrowFunctionExpression", "ClassExpression",
   "SpreadElement", "UnaryExpression", "UpdateExpression", "BinaryExpression", "LogicalExpression",
   "AssignmentExpression", "ConditionalExpression", "CallExpression", "NewExpression", "MemberExpression",
   "ChainExpression", "SequenceExpression", "AwaitExpression", "ObjectPattern", "ArrayPattern",
   "RestElement", "AssignmentPattern", "Verbatim"]

end Node

namespace Field

variable {α : Type u}

def ofOption : Option α → Field α
  | some a => .node a
  | none => .absent

def children : Field α → List α
  | .node a => [a]
  | .list as => as
  | .holes slots => slots.filterMap id
  | _ => []

end Field

def Func.fields (f : Func α) : List (String × Field α) :=
  [("id", .ofOption f.id), ("params", .list f.params), ("body", .node f.body), ("async", .flag f.isAsync),
   ("generator", .flag f.generator)]

def ClassParts.fields (c : ClassParts α) : List (String × Field α) :=
  [("id", .ofOption c.id), ("superClass", .ofOption c.superClass), ("body", .node c.body)]

/-- The value field of a literal; a regular expression has none. -/
def LiteralValue.field : LiteralValue → Field α
  | .string s => .text s
  | .number x => .number x
  | .boolean b => .flag b
  | .null => .absent
  | .regex .. => .absent

namespace Node

variable {α : Type u} {β : Type v}

/-- All fields in source order. -/
def fields : Node α → List (String × Field α)
  | .program body => [("body", .list body)]
  | .expressionStatement expression => [("expression", .node expression)]
  | .blockStatement body => [("body", .list body)]
  | .emptyStatement => []
  | .returnStatement argument => [("argument", .ofOption argument)]
  | .ifStatement test consequent alternate =>
    [("test", .node test), ("consequent", .node consequent), ("alternate", .ofOption alternate)]
  | .forStatement init test update body =>
    [("init", .ofOption init), ("test", .ofOption test), ("update", .ofOption update),
     ("body", .node body)]
  | .forInStatement left right body => [("left", .node left), ("right", .node right), ("body", .node body)]
  | .forOfStatement left right body isAwait =>
    [("left", .node left), ("right", .node right), ("body", .node body), ("await", .flag isAwait)]
  | .whileStatement test body => [("test", .node test), ("body", .node body)]
  | .doWhileStatement body test => [("body", .node body), ("test", .node test)]
  | .breakStatement label => [("label", .ofOption label)]
  | .continueStatement label => [("label", .ofOption label)]
  | .throwStatement argument => [("argument", .node argument)]
  | .tryStatement block handler finalizer =>
    [("block", .node block), ("handler", .ofOption handler), ("finalizer", .ofOption finalizer)]
  | .catchClause param body => [("param", .ofOption param), ("body", .node body)]
  | .switchStatement discriminant cases => [("discriminant", .node discriminant), ("cases", .list cases)]
  | .switchCase test consequent => [("test", .ofOption test), ("consequent", .list consequent)]
  | .labeledStatement label body => [("label", .node label), ("body", .node body)]
  | .variableDeclaration kind declarations =>
    [("kind", .text kind.word), ("declarations", .list declarations)]
  | .variableDeclarator id init => [("id", .node id), ("init", .ofOption init)]
  | .functionDeclaration f => f.fields
  | .classDeclaration c => c.fields
  | .classBody body => [("body", .list body)]
  | .methodDefinition key value kind computed isStatic =>
    [("key", .node key), ("value", .node value), ("kind", .text kind.word), ("computed", .flag computed),
     ("static", .flag isStatic)]
  | .propertyDefinition key value computed isStatic =>
    [("key", .node key), ("value", .ofOption value), ("computed", .flag computed),
     ("static", .flag isStatic)]
  | .identifier name => [("name", .text name)]
  | .privateIdentifier name => [("name", .text name)]
  | .literal value raw => [("value", value.field), ("raw", .text raw)]
  | .thisExpression => []
  | .super => []
  | .arrayExpression elements => [("elements", .holes elements)]
  | .objectExpression properties => [("properties", .list properties)]
  | .property key value kind computed shorthand method =>
    [("key", .node key), ("value", .node value), ("kind", .text kind.word), ("computed", .flag computed),
     ("shorthand", .flag shorthand), ("method", .flag method)]
  | .functionExpression f => f.fields
  | .arrowFunctionExpression f => f.fields
  | .classExpression c => c.fields
  | .spreadElement argument => [("argument", .node argument)]
  | .unaryExpression operator argument =>
    [("operator", .text operator), ("prefix", .flag true), ("argument", .node argument)]
  | .updateExpression operator isPrefix argument =>
    [("operator", .text operator), ("prefix", .flag isPrefix), ("argument", .node argument)]
  | .binaryExpression operator left right =>
    [("operator", .text operator), ("left", .node left), ("right", .node right)]
  | .logicalExpression operator left right =>
    [("operator", .text operator), ("left", .node left), ("right", .node right)]
  | .assignmentExpression operator left right =>
    [("operator", .text operator), ("left", .node left), ("right", .node right)]
  | .conditionalExpression test consequent alternate =>
    [("test", .node test), ("consequent", .node consequent), ("alternate", .node alternate)]
  | .callExpression callee arguments optional =>
    [("callee", .node callee), ("arguments", .list arguments), ("optional", .flag optional)]
  | .newExpression callee arguments => [("callee", .node callee), ("arguments", .list arguments)]
  | .memberExpression object member computed optional =>
    [("object", .node object), ("property", .node member), ("computed", .flag computed),
     ("optional", .flag optional)]
  | .chainExpression expression => [("expression", .node expression)]
  | .sequenceExpression expressions => [("expressions", .list expressions)]
  | .awaitExpression argument => [("argument", .node argument)]
  | .objectPattern properties => [("properties", .list properties)]
  | .arrayPattern elements => [("elements", .holes elements)]
  | .restElement argument => [("argument", .node argument)]
  | .assignmentPattern left right => [("left", .node left), ("right", .node right)]
  | .verbatim text => [("raw", .text text)]

def field? (n : Node α) (name : String) : Option (Field α) := n.fields.lookup name

/-- Direct children in source order. -/
def children (n : Node α) : List α := n.fields.flatMap fun f => f.2.children

/-- The function of a function-shaped node. -/
def func? : Node α → Option (Func α)
  | .functionDeclaration f => some f
  | .functionExpression f => some f
  | .arrowFunctionExpression f => some f
  | _ => none

/-- The statement list a node owns. -/
def statements? : Node α → Option (List α)
  | .program body => some body
  | .blockStatement body => some body
  | .switchCase _ consequent => some consequent
  | _ => none

def withStatements (n : Node α) (statements : List α) : Node α :=
  match n with
  | .program _ => .program statements
  | .blockStatement _ => .blockStatement statements
  | .switchCase test _ => .switchCase test statements
  | n => n

def withFunc (n : Node α) (f : Func α) : Node α :=
  match n with
  | .functionDeclaration _ => .functionDeclaration f
  | .functionExpression _ => .functionExpression f
  | .arrowFunctionExpression _ => .arrowFunctionExpression f
  | n => n

/-! ## Traversal -/

section Traverse
variable {m : Type v → Type w} [Monad m]

def traverseOption (f : α → m β) : Option α → m (Option β)
  | none => pure none
  | some a => do pure (some (← f a))

def traverseList (f : α → m β) : List α → m (List β)
  | [] => pure []
  | a :: rest => do
    let b ← f a
    pure (b :: (← traverseList f rest))

def traverseFunc (f : α → m β) (g : Func α) : m (Func β) := do
  pure { id := ← traverseOption f g.id, params := ← traverseList f g.params, body := ← f g.body
         isAsync := g.isAsync, generator := g.generator }

def traverseClass (f : α → m β) (c : ClassParts α) : m (ClassParts β) := do
  pure { id := ← traverseOption f c.id, superClass := ← traverseOption f c.superClass, body := ← f c.body }

/-- Replaces every child by what an action gives for it, children in source order. -/
def traverse (f : α → m β) : Node α → m (Node β)
  | .program body => do pure (.program (← traverseList f body))
  | .expressionStatement expression => do pure (.expressionStatement (← f expression))
  | .blockStatement body => do pure (.blockStatement (← traverseList f body))
  | .emptyStatement => pure (.emptyStatement)
  | .returnStatement argument => do pure (.returnStatement (← traverseOption f argument))
  | .ifStatement test consequent alternate => do
    pure (.ifStatement (← f test) (← f consequent) (← traverseOption f alternate))
  | .forStatement init test update body => do
    pure (.forStatement (← traverseOption f init) (← traverseOption f test) (← traverseOption f update) (← f body))
  | .forInStatement left right body => do pure (.forInStatement (← f left) (← f right) (← f body))
  | .forOfStatement left right body isAwait => do
    pure (.forOfStatement (← f left) (← f right) (← f body) isAwait)
  | .whileStatement test body => do pure (.whileStatement (← f test) (← f body))
  | .doWhileStatement body test => do pure (.doWhileStatement (← f body) (← f test))
  | .breakStatement label => do pure (.breakStatement (← traverseOption f label))
  | .continueStatement label => do pure (.continueStatement (← traverseOption f label))
  | .throwStatement argument => do pure (.throwStatement (← f argument))
  | .tryStatement block handler finalizer => do
    pure (.tryStatement (← f block) (← traverseOption f handler) (← traverseOption f finalizer))
  | .catchClause param body => do pure (.catchClause (← traverseOption f param) (← f body))
  | .switchStatement discriminant cases => do
    pure (.switchStatement (← f discriminant) (← traverseList f cases))
  | .switchCase test consequent => do
    pure (.switchCase (← traverseOption f test) (← traverseList f consequent))
  | .labeledStatement label body => do pure (.labeledStatement (← f label) (← f body))
  | .variableDeclaration kind declarations => do
    pure (.variableDeclaration kind (← traverseList f declarations))
  | .variableDeclarator id init => do pure (.variableDeclarator (← f id) (← traverseOption f init))
  | .functionDeclaration function => do pure (.functionDeclaration (← traverseFunc f function))
  | .classDeclaration parts => do pure (.classDeclaration (← traverseClass f parts))
  | .classBody body => do pure (.classBody (← traverseList f body))
  | .methodDefinition key value kind computed isStatic => do
    pure (.methodDefinition (← f key) (← f value) kind computed isStatic)
  | .propertyDefinition key value computed isStatic => do
    pure (.propertyDefinition (← f key) (← traverseOption f value) computed isStatic)
  | .identifier name => pure (.identifier name)
  | .privateIdentifier name => pure (.privateIdentifier name)
  | .literal value raw => pure (.literal value raw)
  | .thisExpression => pure (.thisExpression)
  | .super => pure (.super)
  | .arrayExpression elements => do pure (.arrayExpression (← traverseList (traverseOption f) elements))
  | .objectExpression properties => do pure (.objectExpression (← traverseList f properties))
  | .property key value kind computed shorthand method => do
    pure (.property (← f key) (← f value) kind computed shorthand method)
  | .functionExpression function => do pure (.functionExpression (← traverseFunc f function))
  | .arrowFunctionExpression function => do pure (.arrowFunctionExpression (← traverseFunc f function))
  | .classExpression parts => do pure (.classExpression (← traverseClass f parts))
  | .spreadElement argument => do pure (.spreadElement (← f argument))
  | .unaryExpression operator argument => do pure (.unaryExpression operator (← f argument))
  | .updateExpression operator isPrefix argument => do
    pure (.updateExpression operator isPrefix (← f argument))
  | .binaryExpression operator left right => do pure (.binaryExpression operator (← f left) (← f right))
  | .logicalExpression operator left right => do pure (.logicalExpression operator (← f left) (← f right))
  | .assignmentExpression operator left right => do
    pure (.assignmentExpression operator (← f left) (← f right))
  | .conditionalExpression test consequent alternate => do
    pure (.conditionalExpression (← f test) (← f consequent) (← f alternate))
  | .callExpression callee arguments optional => do
    pure (.callExpression (← f callee) (← traverseList f arguments) optional)
  | .newExpression callee arguments => do pure (.newExpression (← f callee) (← traverseList f arguments))
  | .memberExpression object member computed optional => do
    pure (.memberExpression (← f object) (← f member) computed optional)
  | .chainExpression expression => do pure (.chainExpression (← f expression))
  | .sequenceExpression expressions => do pure (.sequenceExpression (← traverseList f expressions))
  | .awaitExpression argument => do pure (.awaitExpression (← f argument))
  | .objectPattern properties => do pure (.objectPattern (← traverseList f properties))
  | .arrayPattern elements => do pure (.arrayPattern (← traverseList (traverseOption f) elements))
  | .restElement argument => do pure (.restElement (← f argument))
  | .assignmentPattern left right => do pure (.assignmentPattern (← f left) (← f right))
  | .verbatim text => pure (.verbatim text)

end Traverse

end Node
end Graft
