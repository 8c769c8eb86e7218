import Graft.Print.Level
/-!
# Printing trees

A tree prints as a list of pieces: leaf texts, marks (punctuation and keywords), single blanks and line
breaks. Lines are indented by two blanks a level, one statement a line, with explicit semicolons;
literals keep their raw text. Parentheses come from binding levels alone, so a tree needs no memory of
the source to print correctly.

`Tree.pieces` prints a node by itself; `asStatement` and `asOperand` say what a place adds to it: the
semicolon after an expression that stands as a statement, the parentheses around an operand that binds
too loosely.
-/

namespace Graft

/-- A piece of printed text. A leaf is the text of an identifier, a private name, a literal, `this`,
`super` or of verbatim source. -/
inductive Piece where
  | leaf (text : String)
  | mark (text : String)
  | blank
  | line (depth : Nat)
  deriving DecidableEq, Inhabited

abbrev Pieces := List Piece

namespace Piece

def text : Piece → String
  | .leaf s => s
  | .mark s => s
  | .blank => " "
  | .line depth => String.ofList ('\n' :: List.replicate (2 * depth) ' ')

/-- The text of pieces, written one after the other. -/
def join (pieces : Pieces) : String := pieces.foldl (fun acc p => acc ++ p.text) ""

end Piece

/-- Where printing stands: the depth of indentation, and whether a bare `in` would be read as the
head of a for-in loop. -/
structure PrintContext where
  depth : Nat := 0
  noIn : Bool := false

namespace PrintContext

def deeper (c : PrintContext) : PrintContext := { c with depth := c.depth + 1 }

def withIn (c : PrintContext) : PrintContext := { c with noIn := false }

def withoutIn (c : PrintContext) : PrintContext := { c with noIn := true }

end PrintContext

namespace Tree

/-- The printed form of a node by itself, in a context. -/
abbrev Printed := PrintContext → Pieces

/-! ## Places -/

def parenthesized (printed : Printed) : Printed := fun c => .mark "(" :: printed c.withIn ++ [.mark ")"]

/-- An operand where only expressions of level `least` or tighter may stand bare. -/
def asOperand (t : Tree) (printed : Printed) (least : Nat) : Printed := fun c =>
  if t.level < least || (c.noIn && t.node.isBareIn) then parenthesized printed c else printed c

/-- A node in the place of a statement. -/
def asStatement (t : Tree) (printed : Printed) : Printed := fun c =>
  match t.node with
  | .verbatim _ => printed c
  | n => if n.isStatement then printed c else asOperand t printed Level.sequence c ++ [.mark ";"]

/-- What stands before the separator of a loop: a declaration, or an expression. -/
def asHead (t : Tree) (declared plain : Printed) : Printed :=
  match t.node with
  | .variableDeclaration .. => declared
  | _ => plain

def asDeclarator (t : Tree) (declared plain : Printed) : Printed :=
  match t.node with
  | .variableDeclarator .. => declared
  | _ => asOperand t plain Level.assign

def asMember (t : Tree) (member plain : Printed) : Printed :=
  match t.node with
  | .methodDefinition .. | .propertyDefinition .. => member
  | _ => asStatement t plain

/-- The object of a member access or the callee of a call. A closed optional chain keeps its
parentheses, so that it does not cut short what follows. -/
def asChainObject (t : Tree) (printed : Printed) : Printed :=
  if t.node.isChain then parenthesized printed else asOperand t printed Level.call

/-- The object of a member access; a number would swallow the dot. -/
def asMemberObject (t : Tree) (printed : Printed) : Printed :=
  if t.node.isNumber then parenthesized printed else asChainObject t printed

def asNewCallee (t : Tree) (printed : Printed) : Printed :=
  if t.newCalleeNeedsParens then parenthesized printed else printed

/-- An operand of a binary operator of level `least`, put in parentheses when forced. -/
def asForced (force : Bool) (t : Tree) (printed : Printed) (least : Nat) : Printed :=
  if force then parenthesized printed else asOperand t printed least

/-- A binary or logical operation. `**` groups to the right and takes no bare unary on its left; `??`
does not mix with `&&` and `||`. -/
def binaryPieces (operator : String) (left : Tree) (l : Printed) (right : Tree) (r : Printed) : Printed := fun c =>
  let level := Level.ofOperator operator
  if operator = "**" then
    asForced left.node.isUnaryOrAwait left l (level + 1) c ++ [.blank, .mark "**", .blank]
      ++ asOperand right r level c
  else
    let mixes (t : Tree) : Bool := operator = "??" && t.node.isAndOr
    asForced (mixes left) left l level c ++ [.blank, .mark operator, .blank]
      ++ asForced (mixes right) right r (level + 1) c

/-- A word operator, or a sign before the same sign, is set off by a blank. -/
def unaryGap (operator : String) (argument : Tree) : Bool :=
  operator.toList.all Unicode.isAsciiLetter ||
    match operator.toList with
    | '-' :: _ => argument.node.startsWithSign '-'
    | '+' :: _ => argument.node.startsWithSign '+'
    | _ => false

def asKey (computed : Bool) (key : Tree) (printed : Printed) : Printed := fun c =>
  if computed then .mark "[" :: asOperand key printed Level.assign c ++ [.mark "]"]
  else asOperand key printed Level.primary c

def optionally (b : Bool) (pieces : Pieces) : Pieces := if b then pieces else []

def isLastHole : List (Option Tree) → Bool
  | [] => false
  | [none] => true
  | _ :: rest => isLastHole rest

/-! ## Nodes -/

mutual
/-- The printed form of a node by itself. Parts of other nodes print as their owner shows them. -/
def pieces : Tree → PrintContext → Pieces
  | .mk (.program body), c => programLines body c
  | .mk (.expressionStatement e), c =>
    (if needsStatementParens e then .mark "(" :: asOperand e (pieces e) Level.sequence c ++ [.mark ")"]
     else asOperand e (pieces e) Level.sequence c) ++ [.mark ";"]
  | .mk (.blockStatement body), c => block body c
  | .mk .emptyStatement, _ => [.mark ";"]
  | .mk (.returnStatement argument), c =>
    .mark "return" :: (match argument with
      | some e => .blank :: asOperand e (pieces e) Level.sequence c
      | none => []) ++ [.mark ";"]
  | .mk (.throwStatement e), c => .mark "throw" :: .blank :: asOperand e (pieces e) Level.sequence c ++ [.mark ";"]
  | .mk (.ifStatement test consequent alternate), c =>
    let guarded := alternate.isSome && hasDanglingIf consequent
    [.mark "if", .blank, .mark "("] ++ asOperand test (pieces test) Level.sequence c ++ [.mark ")", .blank]
      ++ (if guarded then
            [.mark "\x7b", .line (c.depth + 1)] ++ asStatement consequent (pieces consequent) c.deeper.withIn
              ++ [.line c.depth, .mark "\x7d"]
          else asStatement consequent (pieces consequent) c)
      ++ (match alternate with
          | some s => [.blank, .mark "else", .blank] ++ asStatement s (pieces s) c
          | none => [])
  | .mk (.forStatement init test update body), c =>
    [.mark "for", .blank, .mark "("]
      ++ (match init with
          | some t => asOperand t (asHead t (head t) (pieces t)) Level.sequence c.withoutIn
          | none => [])
      ++ [.mark ";"]
      ++ (match test with
          | some t => .blank :: asOperand t (pieces t) Level.sequence c
          | none => [])
      ++ [.mark ";"]
      ++ (match update with
          | some t => .blank :: asOperand t (pieces t) Level.sequence c
          | none => [])
      ++ [.mark ")", .blank] ++ asStatement body (pieces body) c
  | .mk (.forInStatement left right body), c =>
    [.mark "for", .blank, .mark "("] ++ asOperand left (asHead left (head left) (pieces left)) Level.call c ++ [.blank, .mark "in", .blank]
      ++ asOperand right (pieces right) Level.sequence c ++ [.mark ")", .blank] ++ asStatement body (pieces body) c
  | .mk (.forOfStatement left right body isAwait), c =>
    [.mark "for", .blank] ++ optionally isAwait [.mark "await", .blank] ++ [.mark "("]
      ++ asOperand left (asHead left (head left) (pieces left)) Level.call c ++ [.blank, .mark "of", .blank]
      ++ asOperand right (pieces right) Level.assign c ++ [.mark ")", .blank] ++ asStatement body (pieces body) c
  | .mk (.whileStatement test body), c =>
    [.mark "while", .blank, .mark "("] ++ asOperand test (pieces test) Level.sequence c ++ [.mark ")", .blank]
      ++ asStatement body (pieces body) c
  | .mk (.doWhileStatement body test), c =>
    [.mark "do", .blank] ++ asStatement body (pieces body) c ++ [.blank, .mark "while", .blank, .mark "("]
      ++ asOperand test (pieces test) Level.sequence c ++ [.mark ")", .mark ";"]
  | .mk (.breakStatement label), c =>
    .mark "break" :: (match label with
      | some l => .blank :: asOperand l (pieces l) Level.primary c
      | none => []) ++ [.mark ";"]
  | .mk (.continueStatement label), c =>
    .mark "continue" :: (match label with
      | some l => .blank :: asOperand l (pieces l) Level.primary c
      | none => []) ++ [.mark ";"]
  | .mk (.tryStatement body handler finalizer), c =>
    [.mark "try", .blank] ++ asStatement body (pieces body) c
      ++ (match handler with
          | some h => catchClause h c
          | none => [])
      ++ (match finalizer with
          | some f => [.blank, .mark "finally", .blank] ++ asStatement f (pieces f) c
          | none => [])
  | .mk (.catchClause ..), _ => []
  | .mk (.switchStatement discriminant cases), c =>
    [.mark "switch", .blank, .mark "("] ++ asOperand discriminant (pieces discriminant) Level.sequence c
      ++ [.mark ")", .blank, .mark "\x7b"] ++ switchCases cases c.deeper ++ [.line c.depth, .mark "\x7d"]
  | .mk (.switchCase ..), _ => []
  | .mk (.labeledStatement label body), c =>
    asOperand label (pieces label) Level.primary c ++ [.mark ":", .blank] ++ asStatement body (pieces body) c
  | .mk (.variableDeclaration kind declarations), c =>
    .mark kind.word :: .blank :: declarators declarations c ++ [.mark ";"]
  | .mk (.variableDeclarator ..), _ => []
  | .mk (.functionDeclaration f), c => function f c
  | .mk (.functionExpression f), c => function f c
  | .mk (.arrowFunctionExpression f), c => arrow f c
  | .mk (.classDeclaration k), c => classPieces k c
  | .mk (.classExpression k), c => classPieces k c
  | .mk (.classBody _), _ => []
  | .mk (.methodDefinition ..), _ => []
  | .mk (.propertyDefinition ..), _ => []
  | .mk (.identifier name), _ => [.leaf name]
  | .mk (.privateIdentifier name), _ => [.leaf ("#" ++ name)]
  | .mk (.literal _ raw), _ => [.leaf raw]
  | .mk .thisExpression, _ => [.leaf "this"]
  | .mk .super, _ => [.leaf "super"]
  | .mk (.arrayExpression elements), c =>
    .mark "[" :: slots elements c ++ optionally (isLastHole elements) [.mark ","] ++ [.mark "]"]
  | .mk (.arrayPattern elements), c =>
    .mark "[" :: slots elements c ++ optionally (isLastHole elements) [.mark ","] ++ [.mark "]"]
  | .mk (.objectExpression properties), c => braced properties c
  | .mk (.objectPattern properties), c => braced properties c
  | .mk (.property key value kind computed shorthand method), c =>
    let keyPieces := asKey computed key (pieces key) c
    if shorthand && shorthandIntact key value then asOperand value (pieces value) Level.assign c
    else if kind ≠ .init || method then
      match value.node.func? with
      | some f =>
        (match kind with
          | .get => [.mark "get", .blank]
          | .set => [.mark "set", .blank]
          | .init => optionally f.isAsync [.mark "async", .blank] ++ optionally f.generator [.mark "*"])
          ++ keyPieces ++ signatureAndBody value c
      | none => keyPieces ++ [.mark ":", .blank] ++ asOperand value (pieces value) Level.assign c
    else keyPieces ++ [.mark ":", .blank] ++ asOperand value (pieces value) Level.assign c
  | .mk (.spreadElement e), c => .mark "..." :: asOperand e (pieces e) Level.assign c
  | .mk (.restElement e), c => .mark "..." :: asOperand e (pieces e) Level.assign c
  | .mk (.unaryExpression operator e), c =>
    .mark operator :: optionally (unaryGap operator e) [.blank] ++ asOperand e (pieces e) Level.unary c
  | .mk (.updateExpression operator isPrefix e), c =>
    if isPrefix then .mark operator :: asOperand e (pieces e) Level.unary c
    else asOperand e (pieces e) Level.call c ++ [.mark operator]
  | .mk (.binaryExpression operator l r), c => binaryPieces operator l (pieces l) r (pieces r) c
  | .mk (.logicalExpression operator l r), c => binaryPieces operator l (pieces l) r (pieces r) c
  | .mk (.assignmentExpression operator l r), c =>
    asOperand l (pieces l) Level.call c ++ [.blank, .mark operator, .blank] ++ asOperand r (pieces r) Level.assign c
  | .mk (.assignmentPattern l r), c =>
    asOperand l (pieces l) Level.call c ++ [.blank, .mark "=", .blank] ++ asOperand r (pieces r) Level.assign c
  | .mk (.conditionalExpression test yes no), c =>
    asOperand test (pieces test) Level.nullish c ++ [.blank, .mark "?", .blank]
      ++ asOperand yes (pieces yes) Level.assign c ++ [.blank, .mark ":", .blank]
      ++ asOperand no (pieces no) Level.assign c
  | .mk (.callExpression callee arguments optional), c =>
    asChainObject callee (pieces callee) c ++ optionally optional [.mark "?."] ++ [.mark "("]
      ++ listed arguments c ++ [.mark ")"]
  | .mk (.newExpression callee arguments), c =>
    [.mark "new", .blank] ++ asNewCallee callee (pieces callee) c ++ [.mark "("] ++ listed arguments c ++ [.mark ")"]
  | .mk (.memberExpression object member computed optional), c =>
    asMemberObject object (pieces object) c
      ++ (if computed then
            optionally optional [.mark "?."] ++ .mark "[" :: asOperand member (pieces member) Level.sequence c ++ [.mark "]"]
          else .mark (if optional then "?." else ".") :: pieces member c)
  | .mk (.chainExpression e), c => pieces e c
  | .mk (.sequenceExpression es), c => listed es c
  | .mk (.awaitExpression e), c => [.mark "await", .blank] ++ asOperand e (pieces e) Level.unary c
  | .mk (.verbatim text), _ => [.leaf text]

/-- A declaration without its semicolon. -/
def head : Tree → PrintContext → Pieces
  | .mk (.variableDeclaration kind declarations), c => .mark kind.word :: .blank :: declarators declarations c
  | _, _ => []

/-- The statements of a program, one a line. -/
def programLines : List Tree → PrintContext → Pieces
  | [], _ => []
  | [s], c => asStatement s (pieces s) c
  | s :: rest, c => asStatement s (pieces s) c ++ .line 0 :: programLines rest c

/-- Statements on lines of their own. -/
def lines : List Tree → PrintContext → Pieces
  | [], _ => []
  | s :: rest, c => .line c.depth :: asStatement s (pieces s) c ++ lines rest c

def block : List Tree → PrintContext → Pieces
  | [], _ => [.mark "\x7b", .mark "\x7d"]
  | s :: rest, c =>
    .mark "\x7b" :: .line (c.depth + 1) :: asStatement s (pieces s) c.deeper.withIn ++ lines rest c.deeper.withIn
      ++ [.line c.depth, .mark "\x7d"]

def catchClause : Tree → PrintContext → Pieces
  | .mk (.catchClause param body), c =>
    [.blank, .mark "catch", .blank]
      ++ (match param with
          | some p => .mark "(" :: asOperand p (pieces p) Level.assign c ++ [.mark ")", .blank]
          | none => [])
      ++ asStatement body (pieces body) c
  | _, _ => []

def switchCases : List Tree → PrintContext → Pieces
  | [], _ => []
  | s :: rest, c => switchCase s c ++ switchCases rest c

def switchCase : Tree → PrintContext → Pieces
  | .mk (.switchCase test consequent), c =>
    .line c.depth :: (match test with
      | some t => [.mark "case", .blank] ++ asOperand t (pieces t) Level.sequence c ++ [.mark ":"]
      | none => [.mark "default", .mark ":"]) ++ lines consequent c.deeper
  | _, _ => []

def declarators : List Tree → PrintContext → Pieces
  | [], _ => []
  | [d], c => asDeclarator d (declarator d) (pieces d) c
  | d :: rest, c => asDeclarator d (declarator d) (pieces d) c ++ [.mark ",", .blank] ++ declarators rest c

/-- A name that is declared, with its value. -/
def declarator : Tree → PrintContext → Pieces
  | .mk (.variableDeclarator id init), c =>
    asOperand id (pieces id) Level.assign c ++
      (match init with
        | some e => [.blank, .mark "=", .blank] ++ asOperand e (pieces e) Level.assign c
        | none => [])
  | _, _ => []

/-- Expressions between commas. -/
def listed : List Tree → PrintContext → Pieces
  | [], _ => []
  | [e], c => asOperand e (pieces e) Level.assign c
  | e :: rest, c => asOperand e (pieces e) Level.assign c ++ [.mark ",", .blank] ++ listed rest c

/-- Elements and holes between commas. -/
def slots : List (Option Tree) → PrintContext → Pieces
  | [], _ => []
  | [none], _ => []
  | [some e], c => asOperand e (pieces e) Level.assign c
  | none :: rest, c => .mark "," :: .blank :: slots rest c
  | some e :: rest, c => asOperand e (pieces e) Level.assign c ++ [.mark ",", .blank] ++ slots rest c

def braced : List Tree → PrintContext → Pieces
  | [], _ => [.mark "\x7b", .mark "\x7d"]
  | p :: rest, c =>
    [.mark "\x7b", .blank] ++ asOperand p (pieces p) Level.assign c ++ furtherMembers rest c ++ [.blank, .mark "\x7d"]

def furtherMembers : List Tree → PrintContext → Pieces
  | [], _ => []
  | p :: rest, c => [.mark ",", .blank] ++ asOperand p (pieces p) Level.assign c ++ furtherMembers rest c

def function : Func Tree → PrintContext → Pieces
  | ⟨id, params, body, isAsync, generator⟩, c =>
    optionally isAsync [.mark "async", .blank] ++ .mark "function" :: optionally generator [.mark "*"] ++ [.blank]
      ++ (match id with
          | some t => asOperand t (pieces t) Level.primary c
          | none => [])
      ++ .mark "(" :: listed params c ++ [.mark ")", .blank] ++ asStatement body (pieces body) c

def arrow : Func Tree → PrintContext → Pieces
  | ⟨_, params, body, isAsync, _⟩, c =>
    optionally isAsync [.mark "async", .blank] ++ .mark "(" :: listed params c
      ++ [.mark ")", .blank, .mark "=>", .blank]
      ++ (if body.node.isBlock then asStatement body (pieces body) c
          else if startsWithBrace body then .mark "(" :: asOperand body (pieces body) Level.assign c ++ [.mark ")"]
          else asOperand body (pieces body) Level.assign c)

/-- Parameters and body of a method. -/
def signatureAndBody : Tree → PrintContext → Pieces
  | .mk (.functionDeclaration f), c => signature f c
  | .mk (.functionExpression f), c => signature f c
  | .mk (.arrowFunctionExpression f), c => signature f c
  | _, _ => []

def signature : Func Tree → PrintContext → Pieces
  | ⟨_, params, body, _, _⟩, c =>
    .mark "(" :: listed params c ++ [.mark ")", .blank] ++ asStatement body (pieces body) c

def classPieces : ClassParts Tree → PrintContext → Pieces
  | ⟨id, superClass, body⟩, c =>
    .mark "class" :: (match id with
        | some t => .blank :: asOperand t (pieces t) Level.primary c
        | none => [])
      ++ (match superClass with
          | some t => [.blank, .mark "extends", .blank] ++ asOperand t (pieces t) Level.call c
          | none => [])
      ++ .blank :: classBody body c

def classBody : Tree → PrintContext → Pieces
  | .mk (.classBody members), c =>
    if members.isEmpty then [.mark "\x7b", .mark "\x7d"]
    else .mark "\x7b" :: memberLines members c.deeper ++ [.line c.depth, .mark "\x7d"]
  | _, _ => [.mark "\x7b", .mark "\x7d"]

def memberLines : List Tree → PrintContext → Pieces
  | [], _ => []
  | m :: rest, c => .line c.depth :: asMember m (classMember m) (pieces m) c ++ memberLines rest c

def classMember : Tree → PrintContext → Pieces
  | .mk (.methodDefinition key value kind computed isStatic), c =>
    let keyPieces := asKey computed key (pieces key) c
    optionally isStatic [.mark "static", .blank] ++
      match value.node.func? with
      | some f =>
        (match kind with
          | .get => [.mark "get", .blank]
          | .set => [.mark "set", .blank]
          | _ => optionally f.isAsync [.mark "async", .blank] ++ optionally f.generator [.mark "*"])
          ++ keyPieces ++ signatureAndBody value c
      | none => keyPieces ++ [.mark ":", .blank] ++ asOperand value (pieces value) Level.assign c
  | .mk (.propertyDefinition key value computed isStatic), c =>
    optionally isStatic [.mark "static", .blank] ++ asKey computed key (pieces key) c
      ++ (match value with
          | some e => [.blank, .mark "=", .blank] ++ asOperand e (pieces e) Level.assign c
          | none => [])
      ++ [.mark ";"]
  | _, _ => []
end

/-! ## Whole texts -/

/-- The pieces of a statement, an expression or a program on its own. -/
def standalone (t : Tree) : Pieces := pieces t {}

/-- The source text of a tree. -/
def print (t : Tree) : String := Piece.join t.standalone

/-- The source text of a node that has one of its own. -/
def code? (t : Tree) : Option String := if t.node.isPart then none else some t.print

end Tree
end Graft
