import Graft.Syntax.Tree
import Graft.Text.Unicode
/-!
# Binding levels

How tightly an expression binds, from the comma up to the primary expressions, and the questions about
the start and the end of a printed form that decide where parentheses and braces are needed:
which node its text starts with (`Tree.leftmost`) and whether a following `else` would be captured
(`Tree.hasDanglingIf`).
-/

namespace Graft

/-! ## Levels, loose to tight -/

namespace Level

def sequence : Nat := 1
def assign : Nat := 2
def conditional : Nat := 3
def nullish : Nat := 4
def or : Nat := 5
def and : Nat := 6
def bitOr : Nat := 7
def bitXor : Nat := 8
def bitAnd : Nat := 9
def equality : Nat := 10
def relational : Nat := 11
def shift : Nat := 12
def additive : Nat := 13
def multiplicative : Nat := 14
def exponent : Nat := 15
def unary : Nat := 16
def postfixUpdate : Nat := 17
def call : Nat := 18
def primary : Nat := 19

/-- The level of a binary operator; an unknown one binds like a comparison. -/
def ofOperator (operator : String) : Nat :=
  match operator with
  | "??" => nullish
  | "||" => or
  | "&&" => and
  | "|" => bitOr
  | "^" => bitXor
  | "&" => bitAnd
  | "==" | "!=" | "===" | "!==" => equality
  | "<<" | ">>" | ">>>" => shift
  | "+" | "-" => additive
  | "*" | "/" | "%" => multiplicative
  | "**" => exponent
  | _ => relational

end Level

namespace Node

variable {α : Type u}

/-- The level of an expression. Of the opaque ones only `yield` binds looser than a primary. -/
def level : Node α → Nat
  | .sequenceExpression _ => Level.sequence
  | .assignmentExpression .. => Level.assign
  | .arrowFunctionExpression _ => Level.assign
  | .conditionalExpression .. => Level.conditional
  | .binaryExpression operator _ _ => Level.ofOperator operator
  | .logicalExpression operator _ _ => Level.ofOperator operator
  | .unaryExpression .. => Level.unary
  | .awaitExpression _ => Level.unary
  | .updateExpression _ isPrefix _ => if isPrefix then Level.unary else Level.postfixUpdate
  | .callExpression .. => Level.call
  | .newExpression .. => Level.call
  | .memberExpression .. => Level.call
  | .chainExpression _ => Level.call
  | .verbatim text => if "yield".toList.isPrefixOf text.toList then Level.assign else Level.primary
  | _ => Level.primary

/-- Statements, declarations included. -/
def isStatement : Node α → Bool
  | .expressionStatement _ | .blockStatement _ | .emptyStatement | .returnStatement _ | .ifStatement ..
  | .forStatement .. | .forInStatement .. | .forOfStatement .. | .whileStatement .. | .doWhileStatement ..
  | .breakStatement _ | .continueStatement _ | .throwStatement _ | .tryStatement .. | .switchStatement ..
  | .labeledStatement .. | .variableDeclaration .. | .functionDeclaration _ | .classDeclaration _ => true
  | _ => false

/-- Parts of other nodes, which have no text of their own. -/
def isPart : Node α → Bool
  | .catchClause .. | .switchCase .. | .variableDeclarator .. | .classBody _ | .methodDefinition ..
  | .propertyDefinition .. => true
  | _ => false

def isBlock : Node α → Bool
  | .blockStatement _ => true
  | _ => false

def isObjectExpression : Node α → Bool
  | .objectExpression _ => true
  | _ => false

def isChain : Node α → Bool
  | .chainExpression _ => true
  | _ => false

def isNumber : Node α → Bool
  | .literal (.number _) _ => true
  | _ => false

/-- A comparison by `in` outside parentheses. -/
def isBareIn : Node α → Bool
  | .binaryExpression operator _ _ => operator = "in"
  | _ => false

/-- A logical operation other than `??`. -/
def isAndOr : Node α → Bool
  | .logicalExpression operator _ _ => operator ≠ "??"
  | _ => false

def isUnaryOrAwait : Node α → Bool
  | .unaryExpression .. => true
  | .awaitExpression _ => true
  | _ => false

/-- Does the printed form begin with this sign? -/
def startsWithSign (sign : Char) : Node α → Bool
  | .unaryExpression operator _ => operator.toList.head? = some sign
  | .updateExpression operator isPrefix _ => isPrefix && operator.toList.head? = some sign
  | _ => false

def identifierName? : Node α → Option String
  | .identifier name => some name
  | _ => none

end Node

namespace Tree

def level (t : Tree) : Nat := t.node.level

def identifierName? (t : Tree) : Option String := t.node.identifierName?

/-! ## Starts and ends -/

mutual
/-- The node that the printed form starts with. -/
def leftmost : Tree → Tree
  | .mk (.callExpression callee _ _) => leftmost callee
  | .mk (.memberExpression object _ _ _) => leftmost object
  | .mk (.chainExpression expression) => leftmost expression
  | .mk (.binaryExpression _ left _) => leftmost left
  | .mk (.logicalExpression _ left _) => leftmost left
  | .mk (.assignmentExpression _ left _) => leftmost left
  | .mk (.conditionalExpression test _ _) => leftmost test
  | .mk (.updateExpression operator isPrefix argument) =>
    if isPrefix then .mk (.updateExpression operator isPrefix argument) else leftmost argument
  | .mk (.sequenceExpression expressions) => leftmostOf expressions (.mk (.sequenceExpression expressions))
  | t => t

def leftmostOf : List Tree → Tree → Tree
  | [], whole => whole
  | first :: _, _ => leftmost first
end

/-- Does a text begin with this word, as a whole word? -/
def startsWithWord (word text : String) : Bool :=
  let w := word.toList
  w.isPrefixOf text.toList &&
    match text.toList.drop w.length with
    | [] => true
    | c :: _ => !(Unicode.isAlphanumeric c || c = '_' || c = '$')

/-- An expression statement must not begin with `{`, `function` or `class`. -/
def needsStatementParens (expression : Tree) : Bool :=
  match (leftmost expression).node with
  | .objectExpression _ | .objectPattern _ | .functionExpression _ | .classExpression _ => true
  | .verbatim text =>
    text.toList.head? = some '\x7b' || startsWithWord "function" text || startsWithWord "class" text
  | _ => false

/-- An arrow's expression body must not begin with `{`. -/
def startsWithBrace (expression : Tree) : Bool :=
  match (leftmost expression).node with
  | .objectExpression _ | .objectPattern _ => true
  | _ => false

/-- Would an `else` that follows bind to an `if` inside? -/
def hasDanglingIf : Tree → Bool
  | .mk (.ifStatement _ _ none) => true
  | .mk (.ifStatement _ _ (some alternate)) => hasDanglingIf alternate
  | .mk (.forStatement _ _ _ body) => hasDanglingIf body
  | .mk (.forInStatement _ _ body) => hasDanglingIf body
  | .mk (.forOfStatement _ _ body _) => hasDanglingIf body
  | .mk (.whileStatement _ body) => hasDanglingIf body
  | .mk (.labeledStatement _ body) => hasDanglingIf body
  | _ => false

/-- The callee of `new` may hold no call outside parentheses. -/
def newCalleeNeedsParens : Tree → Bool
  | .mk (.callExpression ..) => true
  | .mk (.chainExpression _) => true
  | .mk (.memberExpression object ..) => newCalleeNeedsParens object
  | t => t.level < Level.call

/-- Is the value still bound to the name of a shorthand key? -/
def shorthandIntact (key value : Tree) : Bool :=
  match key.identifierName? with
  | none => false
  | some name =>
    match value with
    | .mk (.assignmentPattern left _) => left.identifierName? = some name
    | value => value.identifierName? = some name

end Tree
end Graft
