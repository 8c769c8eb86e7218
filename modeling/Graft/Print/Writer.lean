import Graft.Print.Printer
/-!
# Printing with a writer

The printer as a machine that goes over a tree once. It appends to what is written, and it has a depth of indentation and one flag,
set where a bare `in` would be read as the head of a for-in loop. Every printing is a `Writing`, and one comes after the other by
`++`. What changes the depth or the flag has to put it back.

`Tree.write` writes what `Tree.pieces` gives.
-/

namespace Graft

structure Writer where
  out : Pieces := []
  depth : Nat := 0
  noIn : Bool := false

def Writing := Writer → Writer

namespace Writing

/-- One after the other. -/
instance : Append Writing := ⟨fun first second w => second (first w)⟩

def nothing : Writing := fun w => w

def put (ps : Pieces) : Writing := fun w => { w with out := w.out ++ ps }

def newline : Writing := fun w => { w with out := w.out ++ [.line w.depth] }

def indent : Writing := fun w => { w with depth := w.depth + 1 }

def dedent : Writing := fun w => { w with depth := w.depth - 1 }

def indented (inner : Writing) : Writing := indent ++ inner ++ dedent

/-- Writes with the flag replaced, and puts back what it was. -/
def flagged (noIn : Bool) (inner : Writing) : Writing := fun w =>
  { inner { w with noIn } with noIn := w.noIn }

/-! ## Places -/

/-- Inside parentheses `in` is allowed again. -/
def parenthesized (inner : Writing) : Writing := flagged false (put [.mark "("] ++ inner ++ put [.mark ")"])

def operand (t : Tree) (inner : Writing) (least : Nat) : Writing := fun w =>
  if t.level < least || (w.noIn && t.node.isBareIn) then parenthesized inner w else inner w

def statement (t : Tree) (inner : Writing) : Writing :=
  match t.node with
  | .verbatim _ => inner
  | n => if n.isStatement then inner else operand t inner Level.sequence ++ put [.mark ";"]

/-- What stands before the separator of a loop. -/
def loopHead (t : Tree) (declared plain : Writing) : Writing :=
  match t.node with
  | .variableDeclaration .. => declared
  | _ => plain

def declaration (t : Tree) (declared plain : Writing) : Writing :=
  match t.node with
  | .variableDeclarator .. => declared
  | _ => operand t plain Level.assign

def member (t : Tree) (member plain : Writing) : Writing :=
  match t.node with
  | .methodDefinition .. | .propertyDefinition .. => member
  | _ => statement t plain

def chainObject (t : Tree) (inner : Writing) : Writing :=
  if t.node.isChain then parenthesized inner else operand t inner Level.call

def memberObject (t : Tree) (inner : Writing) : Writing :=
  if t.node.isNumber then parenthesized inner else chainObject t inner

def newCallee (t : Tree) (inner : Writing) : Writing :=
  if t.newCalleeNeedsParens then parenthesized inner else inner

def forced (force : Bool) (t : Tree) (inner : Writing) (least : Nat) : Writing :=
  if force then parenthesized inner else operand t inner least

def binary (operator : String) (left : Tree) (l : Writing) (right : Tree) (r : Writing) : Writing :=
  let level := Level.ofOperator operator
  if operator = "**" then
    forced left.node.isUnaryOrAwait left l (level + 1) ++ put [.blank, .mark "**", .blank] ++ operand right r level
  else
    let mixes (t : Tree) : Bool := operator = "??" && t.node.isAndOr
    forced (mixes left) left l level ++ put [.blank, .mark operator, .blank] ++ forced (mixes right) right r (level + 1)

def key (computed : Bool) (t : Tree) (inner : Writing) : Writing :=
  if computed then put [.mark "["] ++ operand t inner Level.assign ++ put [.mark "]"]
  else operand t inner Level.primary

/-- The first clause of a loop, where a bare `in` may not stand. -/
def loopInit (t : Tree) (declared plain : Writing) : Writing :=
  flagged true (operand t (loopHead t declared plain) Level.sequence)

end Writing

namespace Tree

open Writing

mutual
/-- Writes a node by itself. Parts of other nodes are written by their owner. -/
def write : Tree → Writing
  | .mk (.program body) => writeProgram body
  | .mk (.expressionStatement e) =>
    (if needsStatementParens e then put [.mark "("] ++ operand e (write e) Level.sequence ++ put [.mark ")"]
     else operand e (write e) Level.sequence) ++ put [.mark ";"]
  | .mk (.blockStatement body) => writeBlock body
  | .mk .emptyStatement => put [.mark ";"]
  | .mk (.returnStatement argument) =>
    put [.mark "return"] ++ (match argument with
      | some e => put [.blank] ++ operand e (write e) Level.sequence
      | none => nothing) ++ put [.mark ";"]
  | .mk (.throwStatement e) => put [.mark "throw", .blank] ++ operand e (write e) Level.sequence ++ put [.mark ";"]
  | .mk (.ifStatement test consequent alternate) =>
    put [.mark "if", .blank, .mark "("] ++ operand test (write test) Level.sequence ++ put [.mark ")", .blank]
      ++ (if alternate.isSome && hasDanglingIf consequent then
            -- a block of this statement alone
            flagged false (put [.mark "\x7b"] ++ indented (newline ++ statement consequent (write consequent)) ++ newline
              ++ put [.mark "\x7d"])
          else statement consequent (write consequent))
      ++ (match alternate with
          | some s => put [.blank, .mark "else", .blank] ++ statement s (write s)
          | none => nothing)
  | .mk (.forStatement init test update body) =>
    put [.mark "for", .blank, .mark "("]
      ++ (match init with
          | some t => loopInit t (writeHead t) (write t)
          | none => nothing)
      ++ put [.mark ";"]
      ++ (match test with
          | some t => put [.blank] ++ operand t (write t) Level.sequence
          | none => nothing)
      ++ put [.mark ";"]
      ++ (match update with
          | some t => put [.blank] ++ operand t (write t) Level.sequence
          | none => nothing)
      ++ put [.mark ")", .blank] ++ statement body (write body)
  | .mk (.forInStatement left right body) =>
    put [.mark "for", .blank, .mark "("] ++ operand left (loopHead left (writeHead left) (write left)) Level.call
      ++ put [.blank, .mark "in", .blank] ++ operand right (write right) Level.sequence ++ put [.mark ")", .blank]
      ++ statement body (write body)
  | .mk (.forOfStatement left right body isAwait) =>
    put [.mark "for", .blank] ++ put (optionally isAwait [.mark "await", .blank]) ++ put [.mark "("]
      ++ operand left (loopHead left (writeHead left) (write left)) Level.call ++ put [.blank, .mark "of", .blank]
      ++ operand right (write right) Level.assign ++ put [.mark ")", .blank] ++ statement body (write body)
  | .mk (.whileStatement test body) =>
    put [.mark "while", .blank, .mark "("] ++ operand test (write test) Level.sequence ++ put [.mark ")", .blank]
      ++ statement body (write body)
  | .mk (.doWhileStatement body test) =>
    put [.mark "do", .blank] ++ statement body (write body) ++ put [.blank, .mark "while", .blank, .mark "("]
      ++ operand test (write test) Level.sequence ++ put [.mark ")", .mark ";"]
  | .mk (.breakStatement label) =>
    put [.mark "break"] ++ (match label with
      | some l => put [.blank] ++ operand l (write l) Level.primary
      | none => nothing) ++ put [.mark ";"]
  | .mk (.continueStatement label) =>
    put [.mark "continue"] ++ (match label with
      | some l => put [.blank] ++ operand l (write l) Level.primary
      | none => nothing) ++ put [.mark ";"]
  | .mk (.tryStatement body handler finalizer) =>
    put [.mark "try", .blank] ++ statement body (write body)
      ++ (match handler with
          | some h => writeCatch h
          | none => nothing)
      ++ (match finalizer with
          | some f => put [.blank, .mark "finally", .blank] ++ statement f (write f)
          | none => nothing)
  | .mk (.catchClause ..) => nothing
  | .mk (.switchStatement discriminant cases) =>
    put [.mark "switch", .blank, .mark "("] ++ operand discriminant (write discriminant) Level.sequence
      ++ put [.mark ")", .blank, .mark "\x7b"] ++ indented (writeCases cases) ++ newline ++ put [.mark "\x7d"]
  | .mk (.switchCase ..) => nothing
  | .mk (.labeledStatement label body) =>
    operand label (write label) Level.primary ++ put [.mark ":", .blank] ++ statement body (write body)
  | .mk (.variableDeclaration kind declarations) =>
    put [.mark kind.word, .blank] ++ writeDeclarators declarations ++ put [.mark ";"]
  | .mk (.variableDeclarator ..) => nothing
  | .mk (.functionDeclaration f) => writeFunction f
  | .mk (.functionExpression f) => writeFunction f
  | .mk (.arrowFunctionExpression f) => writeArrow f
  | .mk (.classDeclaration k) => writeClass k
  | .mk (.classExpression k) => writeClass k
  | .mk (.classBody _) => nothing
  | .mk (.methodDefinition ..) => nothing
  | .mk (.propertyDefinition ..) => nothing
  | .mk (.identifier name) => put [.leaf name]
  | .mk (.privateIdentifier name) => put [.leaf ("#" ++ name)]
  | .mk (.literal _ raw) => put [.leaf raw]
  | .mk .thisExpression => put [.leaf "this"]
  | .mk .super => put [.leaf "super"]
  | .mk (.arrayExpression elements) =>
    put [.mark "["] ++ writeSlots elements ++ put (optionally (isLastHole elements) [.mark ","]) ++ put [.mark "]"]
  | .mk (.arrayPattern elements) =>
    put [.mark "["] ++ writeSlots elements ++ put (optionally (isLastHole elements) [.mark ","]) ++ put [.mark "]"]
  | .mk (.objectExpression properties) => writeBraced properties
  | .mk (.objectPattern properties) => writeBraced properties
  | .mk (.property k value kind computed shorthand method) =>
    if shorthand && shorthandIntact k value then operand value (write value) Level.assign
    else if kind ≠ .init || method then
      match value.node.func? with
      | some f =>
        put (match kind with
          | .get => [.mark "get", .blank]
          | .set => [.mark "set", .blank]
          | .init => optionally f.isAsync [.mark "async", .blank] ++ optionally f.generator [.mark "*"])
          ++ key computed k (write k) ++ writeSignatureAndBody value
      | none => key computed k (write k) ++ put [.mark ":", .blank] ++ operand value (write value) Level.assign
    else key computed k (write k) ++ put [.mark ":", .blank] ++ operand value (write value) Level.assign
  | .mk (.spreadElement e) => put [.mark "..."] ++ operand e (write e) Level.assign
  | .mk (.restElement e) => put [.mark "..."] ++ operand e (write e) Level.assign
  | .mk (.unaryExpression operator e) =>
    put [.mark operator] ++ put (optionally (unaryGap operator e) [.blank]) ++ operand e (write e) Level.unary
  | .mk (.updateExpression operator isPrefix e) =>
    if isPrefix then put [.mark operator] ++ operand e (write e) Level.unary
    else operand e (write e) Level.call ++ put [.mark operator]
  | .mk (.binaryExpression operator l r) => binary operator l (write l) r (write r)
  | .mk (.logicalExpression operator l r) => binary operator l (write l) r (write r)
  | .mk (.assignmentExpression operator l r) =>
    operand l (write l) Level.call ++ put [.blank, .mark operator, .blank] ++ operand r (write r) Level.assign
  | .mk (.assignmentPattern l r) =>
    operand l (write l) Level.call ++ put [.blank, .mark "=", .blank] ++ operand r (write r) Level.assign
  | .mk (.conditionalExpression test yes no) =>
    operand test (write test) Level.nullish ++ put [.blank, .mark "?", .blank] ++ operand yes (write yes) Level.assign
      ++ put [.blank, .mark ":", .blank] ++ operand no (write no) Level.assign
  | .mk (.callExpression callee arguments optional) =>
    chainObject callee (write callee) ++ put (optionally optional [.mark "?."]) ++ put [.mark "("]
      ++ writeListed arguments ++ put [.mark ")"]
  | .mk (.newExpression callee arguments) =>
    put [.mark "new", .blank] ++ newCallee callee (write callee) ++ put [.mark "("] ++ writeListed arguments ++ put [.mark ")"]
  | .mk (.memberExpression object member computed optional) =>
    memberObject object (write object)
      ++ (if computed then
            put (optionally optional [.mark "?."]) ++ put [.mark "["] ++ operand member (write member) Level.sequence
              ++ put [.mark "]"]
          else put [.mark (if optional then "?." else ".")] ++ write member)
  | .mk (.chainExpression e) => write e
  | .mk (.sequenceExpression es) => writeListed es
  | .mk (.awaitExpression e) => put [.mark "await", .blank] ++ operand e (write e) Level.unary
  | .mk (.verbatim text) => put [.leaf text]

/-- Writes a declaration without its semicolon. -/
def writeHead : Tree → Writing
  | .mk (.variableDeclaration kind declarations) => put [.mark kind.word, .blank] ++ writeDeclarators declarations
  | _ => nothing

def writeProgram : List Tree → Writing
  | [] => nothing
  | [s] => statement s (write s)
  | s :: rest => statement s (write s) ++ put [.line 0] ++ writeProgram rest

def writeLines : List Tree → Writing
  | [] => nothing
  | s :: rest => newline ++ statement s (write s) ++ writeLines rest

def writeBlock : List Tree → Writing
  | [] => put [.mark "\x7b", .mark "\x7d"]
  | s :: rest =>
    flagged false (put [.mark "\x7b"] ++ indented (newline ++ statement s (write s) ++ writeLines rest) ++ newline
      ++ put [.mark "\x7d"])

def writeCatch : Tree → Writing
  | .mk (.catchClause param body) =>
    put [.blank, .mark "catch", .blank]
      ++ (match param with
          | some p => put [.mark "("] ++ operand p (write p) Level.assign ++ put [.mark ")", .blank]
          | none => nothing)
      ++ statement body (write body)
  | _ => nothing

def writeCases : List Tree → Writing
  | [] => nothing
  | s :: rest => writeCase s ++ writeCases rest

def writeCase : Tree → Writing
  | .mk (.switchCase test consequent) =>
    newline
      ++ (match test with
          | some t => put [.mark "case", .blank] ++ operand t (write t) Level.sequence ++ put [.mark ":"]
          | none => put [.mark "default", .mark ":"])
      ++ indented (writeLines consequent)
  | _ => nothing

def writeDeclarators : List Tree → Writing
  | [] => nothing
  | [d] => declaration d (writeDeclarator d) (write d)
  | d :: rest => declaration d (writeDeclarator d) (write d) ++ put [.mark ",", .blank] ++ writeDeclarators rest

def writeDeclarator : Tree → Writing
  | .mk (.variableDeclarator id init) =>
    operand id (write id) Level.assign
      ++ (match init with
          | some e => put [.blank, .mark "=", .blank] ++ operand e (write e) Level.assign
          | none => nothing)
  | _ => nothing

def writeListed : List Tree → Writing
  | [] => nothing
  | [e] => operand e (write e) Level.assign
  | e :: rest => operand e (write e) Level.assign ++ put [.mark ",", .blank] ++ writeListed rest

def writeSlots : List (Option Tree) → Writing
  | [] => nothing
  | [none] => nothing
  | [some e] => operand e (write e) Level.assign
  | none :: rest => put [.mark ",", .blank] ++ writeSlots rest
  | some e :: rest => operand e (write e) Level.assign ++ put [.mark ",", .blank] ++ writeSlots rest

def writeBraced : List Tree → Writing
  | [] => put [.mark "\x7b", .mark "\x7d"]
  | p :: rest =>
    put [.mark "\x7b", .blank] ++ operand p (write p) Level.assign ++ writeFurther rest ++ put [.blank, .mark "\x7d"]

def writeFurther : List Tree → Writing
  | [] => nothing
  | p :: rest => put [.mark ",", .blank] ++ operand p (write p) Level.assign ++ writeFurther rest

def writeFunction : Func Tree → Writing
  | ⟨id, params, body, isAsync, generator⟩ =>
    put (optionally isAsync [.mark "async", .blank]) ++ put [.mark "function"] ++ put (optionally generator [.mark "*"])
      ++ put [.blank]
      ++ (match id with
          | some t => operand t (write t) Level.primary
          | none => nothing)
      ++ put [.mark "("] ++ writeListed params ++ put [.mark ")", .blank] ++ statement body (write body)

def writeArrow : Func Tree → Writing
  | ⟨_, params, body, isAsync, _⟩ =>
    put (optionally isAsync [.mark "async", .blank]) ++ put [.mark "("] ++ writeListed params
      ++ put [.mark ")", .blank, .mark "=>", .blank]
      ++ (if body.node.isBlock then statement body (write body)
          else if startsWithBrace body then put [.mark "("] ++ operand body (write body) Level.assign ++ put [.mark ")"]
          else operand body (write body) Level.assign)

def writeSignatureAndBody : Tree → Writing
  | .mk (.functionDeclaration f) => writeSignature f
  | .mk (.functionExpression f) => writeSignature f
  | .mk (.arrowFunctionExpression f) => writeSignature f
  | _ => nothing

def writeSignature : Func Tree → Writing
  | ⟨_, params, body, _, _⟩ => put [.mark "("] ++ writeListed params ++ put [.mark ")", .blank] ++ statement body (write body)

def writeClass : ClassParts Tree → Writing
  | ⟨id, superClass, body⟩ =>
    put [.mark "class"]
      ++ (match id with
          | some t => put [.blank] ++ operand t (write t) Level.primary
          | none => nothing)
      ++ (match superClass with
          | some t => put [.blank, .mark "extends", .blank] ++ operand t (write t) Level.call
          | none => nothing)
      ++ put [.blank] ++ writeClassBody body

def writeClassBody : Tree → Writing
  | .mk (.classBody members) =>
    if members.isEmpty then put [.mark "\x7b", .mark "\x7d"]
    else put [.mark "\x7b"] ++ indented (writeMembers members) ++ newline ++ put [.mark "\x7d"]
  | _ => put [.mark "\x7b", .mark "\x7d"]

def writeMembers : List Tree → Writing
  | [] => nothing
  | m :: rest => newline ++ member m (writeMember m) (write m) ++ writeMembers rest

def writeMember : Tree → Writing
  | .mk (.methodDefinition k value kind computed isStatic) =>
    put (optionally isStatic [.mark "static", .blank]) ++
      match value.node.func? with
      | some f =>
        put (match kind with
          | .get => [.mark "get", .blank]
          | .set => [.mark "set", .blank]
          | _ => optionally f.isAsync [.mark "async", .blank] ++ optionally f.generator [.mark "*"])
          ++ key computed k (write k) ++ writeSignatureAndBody value
      | none => key computed k (write k) ++ put [.mark ":", .blank] ++ operand value (write value) Level.assign
  | .mk (.propertyDefinition k value computed isStatic) =>
    put (optionally isStatic [.mark "static", .blank]) ++ key computed k (write k)
      ++ (match value with
          | some e => put [.blank, .mark "=", .blank] ++ operand e (write e) Level.assign
          | none => nothing)
      ++ put [.mark ";"]
  | _ => nothing
end

end Tree
end Graft
