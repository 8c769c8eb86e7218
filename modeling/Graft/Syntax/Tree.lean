import Graft.Syntax.Node
/-!
# Syntax trees

`Tree` is the finite tree built from nodes. `Tree.fold` is its recursion: a value for every tree from
a rule that combines the values of the children.
-/

namespace Graft

inductive Tree where
  | mk (node : Node Tree)

namespace Tree

instance : Inhabited Tree := ⟨.mk .emptyStatement⟩

def node : Tree → Node Tree
  | .mk n => n

def typeName (t : Tree) : String := t.node.typeName

def children (t : Tree) : List Tree := t.node.children

section Fold
variable {β : Type v} (combine : Node β → β)

mutual
/-- Combines the values of a node's children, from the leaves up. -/
def fold : Tree → β
  | .mk (.program body) => combine (.program (foldList body))
  | .mk (.expressionStatement expression) => combine (.expressionStatement (fold expression))
  | .mk (.blockStatement body) => combine (.blockStatement (foldList body))
  | .mk .emptyStatement => combine .emptyStatement
  | .mk (.returnStatement argument) => combine (.returnStatement (foldOption argument))
  | .mk (.ifStatement test consequent alternate) =>
    combine (.ifStatement (fold test) (fold consequent) (foldOption alternate))
  | .mk (.forStatement init test update body) =>
    combine (.forStatement (foldOption init) (foldOption test) (foldOption update) (fold body))
  | .mk (.forInStatement left right body) => combine (.forInStatement (fold left) (fold right) (fold body))
  | .mk (.forOfStatement left right body isAwait) =>
    combine (.forOfStatement (fold left) (fold right) (fold body) isAwait)
  | .mk (.whileStatement test body) => combine (.whileStatement (fold test) (fold body))
  | .mk (.doWhileStatement body test) => combine (.doWhileStatement (fold body) (fold test))
  | .mk (.breakStatement label) => combine (.breakStatement (foldOption label))
  | .mk (.continueStatement label) => combine (.continueStatement (foldOption label))
  | .mk (.throwStatement argument) => combine (.throwStatement (fold argument))
  | .mk (.tryStatement block handler finalizer) =>
    combine (.tryStatement (fold block) (foldOption handler) (foldOption finalizer))
  | .mk (.catchClause param body) => combine (.catchClause (foldOption param) (fold body))
  | .mk (.switchStatement discriminant cases) =>
    combine (.switchStatement (fold discriminant) (foldList cases))
  | .mk (.switchCase test consequent) => combine (.switchCase (foldOption test) (foldList consequent))
  | .mk (.labeledStatement label body) => combine (.labeledStatement (fold label) (fold body))
  | .mk (.variableDeclaration kind declarations) =>
    combine (.variableDeclaration kind (foldList declarations))
  | .mk (.variableDeclarator id init) => combine (.variableDeclarator (fold id) (foldOption init))
  | .mk (.functionDeclaration function) => combine (.functionDeclaration (foldFunc function))
  | .mk (.classDeclaration parts) => combine (.classDeclaration (foldClass parts))
  | .mk (.classBody body) => combine (.classBody (foldList body))
  | .mk (.methodDefinition key value kind computed isStatic) =>
    combine (.methodDefinition (fold key) (fold value) kind computed isStatic)
  | .mk (.propertyDefinition key value computed isStatic) =>
    combine (.propertyDefinition (fold key) (foldOption value) computed isStatic)
  | .mk (.identifier name) => combine (.identifier name)
  | .mk (.privateIdentifier name) => combine (.privateIdentifier name)
  | .mk (.literal value raw) => combine (.literal value raw)
  | .mk .thisExpression => combine .thisExpression
  | .mk .super => combine .super
  | .mk (.arrayExpression elements) => combine (.arrayExpression (foldHoles elements))
  | .mk (.objectExpression properties) => combine (.objectExpression (foldList properties))
  | .mk (.property key value kind computed shorthand method) =>
    combine (.property (fold key) (fold value) kind computed shorthand method)
  | .mk (.functionExpression function) => combine (.functionExpression (foldFunc function))
  | .mk (.arrowFunctionExpression function) => combine (.arrowFunctionExpression (foldFunc function))
  | .mk (.classExpression parts) => combine (.classExpression (foldClass parts))
  | .mk (.spreadElement argument) => combine (.spreadElement (fold argument))
  | .mk (.unaryExpression operator argument) => combine (.unaryExpression operator (fold argument))
  | .mk (.updateExpression operator isPrefix argument) =>
    combine (.updateExpression operator isPrefix (fold argument))
  | .mk (.binaryExpression operator left right) =>
    combine (.binaryExpression operator (fold left) (fold right))
  | .mk (.logicalExpression operator left right) =>
    combine (.logicalExpression operator (fold left) (fold right))
  | .mk (.assignmentExpression operator left right) =>
    combine (.assignmentExpression operator (fold left) (fold right))
  | .mk (.conditionalExpression test consequent alternate) =>
    combine (.conditionalExpression (fold test) (fold consequent) (fold alternate))
  | .mk (.callExpression callee arguments optional) =>
    combine (.callExpression (fold callee) (foldList arguments) optional)
  | .mk (.newExpression callee arguments) => combine (.newExpression (fold callee) (foldList arguments))
  | .mk (.memberExpression object member computed optional) =>
    combine (.memberExpression (fold object) (fold member) computed optional)
  | .mk (.chainExpression expression) => combine (.chainExpression (fold expression))
  | .mk (.sequenceExpression expressions) => combine (.sequenceExpression (foldList expressions))
  | .mk (.awaitExpression argument) => combine (.awaitExpression (fold argument))
  | .mk (.objectPattern properties) => combine (.objectPattern (foldList properties))
  | .mk (.arrayPattern elements) => combine (.arrayPattern (foldHoles elements))
  | .mk (.restElement argument) => combine (.restElement (fold argument))
  | .mk (.assignmentPattern left right) => combine (.assignmentPattern (fold left) (fold right))
  | .mk (.verbatim text) => combine (.verbatim text)

def foldList : List Tree → List β
  | [] => []
  | t :: rest => fold t :: foldList rest

def foldOption : Option Tree → Option β
  | none => none
  | some t => some (fold t)

def foldHoles : List (Option Tree) → List (Option β)
  | [] => []
  | none :: rest => none :: foldHoles rest
  | some t :: rest => some (fold t) :: foldHoles rest

def foldFunc : Func Tree → Func β
  | ⟨id, params, body, isAsync, generator⟩ =>
    ⟨foldOption id, foldList params, fold body, isAsync, generator⟩

def foldClass : ClassParts Tree → ClassParts β
  | ⟨id, superClass, body⟩ => ⟨foldOption id, foldOption superClass, fold body⟩
end

end Fold

end Tree
end Graft
