import Graft.Source.Module
/-!
# Statements

Statements of one level of nesting. Module declarations, `debugger`, `with` and `using` are kept as their source text, the
semicolon included if it is written.
-/

namespace Graft.Source

open Read

variable (read : Readers) (fuel : Nat)

/-! ## Control -/

def ifStatement : Read Tree := do
  word "if"
  let test ← condition read fuel
  markupAhead
  let consequent ← read .statement
  let alternate ← if ← word? "else" then some <$> read .statement else pure none
  return .mk (.ifStatement test consequent alternate)

/-- The head of a loop over something: the left side, the right side, and whether `of` stands between. -/
structure LoopHead where
  left : Tree
  right : Tree
  overValues : Bool

def loopOver (left : Tree) : Read LoopHead := do
  let overValues ← isWord "of"
  if overValues then advance else word "in"
  markupAhead
  let right ← expressions read fuel .inner
  punct ")"
  markupAhead
  return ⟨left, right, overValues⟩

/-- A head that declares its variable. -/
def declaringHead : Read LoopHead := do
  match ← peek with
  | .word w =>
    guardThat (["var", "let", "const"].contains w)
    advance
    let id ← bindingTarget read fuel
    let assigns ← if w = "var" && !(← mayEndHere true) then punct? "=" else pure false
    let init ← if assigns then some <$> expressionTree read ⟨true, true, .value⟩ else pure none
    guardThat !(w = "var" && (← mayEndHere init.isNone))
    loopOver read fuel (.mk (.variableDeclaration (.ofWord w) [.mk (.variableDeclarator id init)]))
  | _ => failure

/-- A head that assigns to what it names. -/
def assigningHead : Read LoopHead := do
  let r ← operand read fuel ⟨false, true, .value⟩ false
  loopOver read fuel (← require r.target)

/-- The three clauses of a counting loop. -/
structure LoopClauses where
  init : Option Tree
  test : Option Tree
  update : Option Tree

def countingHead : Read LoopClauses := do
  let clause (mode : Mode) : Read (Option Tree) := do
    if ← punct? ";" then return none
    else
      let e ← expressions read fuel mode
      punct ";"
      return some e
  let declares ← match ← peek with
    | .word "let" => pure (startsBinding (← second).token)
    | .word w => pure (w = "var" || w = "const")
    | _ => pure false
  guardThat !((← isWord "await") && (← second).token = .word "of")
  let init ← match declares, ← peek with
    | true, .word w => some <$> declaration read fuel w
    | _, _ => clause .element
  let test ← clause .inner
  let update ← if ← isPunct ")" then pure none else some <$> expressions read fuel .inner
  punct ")"
  markupAhead
  return ⟨init, test, update⟩

/-- Is this a word that names rather than declares, because `of` follows it? -/
def namedBeforeOf : Read Bool := do
  return ((← isWord "let") || (← isWord "async")) && (← second).token = .word "of"

def loopHead : Read (LoopHead ⊕ LoopClauses) := do
  if ← namedBeforeOf then
    Sum.inl <$> (do loopOver read fuel (← bindingName))
  else Sum.inl <$> declaringHead read fuel <|> Sum.inl <$> assigningHead read fuel <|> Sum.inr <$> countingHead read fuel

def forStatement : Read Tree := do
  word "for"
  let isAwait ← word? "await"
  markupAhead
  punct "("
  match ← loopHead read fuel with
  | .inl h =>
    let body ← read .statement
    if h.overValues then return .mk (.forOfStatement h.left h.right body isAwait)
    else return .mk (.forInStatement h.left h.right body)
  | .inr c =>
    guardThat !isAwait
    let body ← read .statement
    return .mk (.forStatement c.init c.test c.update body)

/-- The body between `do` and `while`. What could as well be an operand is one where no `while` follows it. -/
def doBody : Read Tree := do
  let s ← get
  let body ← read .statement
  let asExpression : Read Tree := do
    set s
    expressionStatement read fuel
  match body with
  | .mk (.blockStatement []) | .mk (.functionDeclaration _) | .mk (.classDeclaration _) =>
    if ← isWord "while" then return body else asExpression
  | body => return body

def doStatement : Read Tree := do
  word "do"
  let body ← doBody read fuel
  word "while"
  let test ← condition read fuel
  if !(← insertedSemicolon true) then
    let _ ← punct? ";"
  return .mk (.doWhileStatement body test)

def catchClause : Read Tree := do
  word "catch"
  let param ← if ← punct? "(" then do
      let p ← bindingTarget read fuel
      markupAhead
      punct ")"
      markupAhead
      pure (some p)
    else pure none
  let body ← block read fuel true
  return .mk (.catchClause param body)

def tryStatement : Read Tree := do
  word "try"
  let body ← block read fuel true
  let handler ← if ← isWord "catch" then some <$> catchClause read fuel else pure none
  let finalizer ← if ← word? "finally" then some <$> block read fuel true else pure none
  return .mk (.tryStatement body handler finalizer)

/-- The statements of a case. -/
def caseBody : Read (List Tree) :=
  collect (do
    if (← isPunct "\x7d") || (← isWord "case") || (← isWord "default") then return none
    else some <$> read .statement) fuel []

def switchStatement : Read Tree := do
  word "switch"
  let discriminant ← condition read fuel
  markupAhead
  punct "\x7b"
  let cases ← collect (do
    if ← punct? "\x7d" then return none
    else if ← word? "case" then
      let test ← expressions read fuel .inner
      punct ":"
      return some (Tree.mk (.switchCase (some test) (← caseBody read fuel)))
    else
      word "default"
      punct ":"
      return some (Tree.mk (.switchCase none (← caseBody read fuel)))) fuel []
  markupAhead
  return .mk (.switchStatement discriminant cases)

/-- A label after `break` or `continue`, on the same line. -/
def jumpLabel : Read (Option Tree) := do
  advance
  if ← insertedSemicolon true then return none
  else
    match ← peek with
    | .word _ =>
      let l ← bindingName
      semicolon true
      return some l
    | _ =>
      punct ";"
      return none

def returnStatement : Read Tree := do
  word "return"
  if ← insertedSemicolon true then return .mk (.returnStatement none)
  else if ← punct? ";" then return .mk (.returnStatement none)
  else
    let e ← expressions read fuel .ending
    semicolon false
    return .mk (.returnStatement (some e))

/-- A statement that begins with a name: a label with its statement, or an expression. -/
def nameStatement (name : String) : Read Tree := do
  let next ← second
  if next.token = .punct ":" && !(mayEnd false next.previous) then
    advance
    advance
    return .mk (.labeledStatement (identifierTree name) (← read .statement))
  else expressionStatement read fuel

/-- A statement that begins with a word which is no keyword of its own. -/
def wordStatement (w : String) : Read Tree := do
  if ← usingDeclares then verbatim (usingDeclaration read fuel)
  else if (isReserved w && w ≠ "export") || w = "yield" || w = "undefined" then expressionStatement read fuel
  else nameStatement read fuel w

/-- Does `export` export something, rather than name it? -/
def exportDeclares : Read Bool := do
  let next ← second
  if mayEnd false next.previous then return false
  else
    match next.token with
    | .word w => return w ≠ "in" && w ≠ "instanceof"
    | .punct p => return p = "*" || p = "\x7b" || p = "@"
    | _ => return false

def keywordStatement (w : String) : Read Tree := do
  match w with
  | "var" => declaration read fuel w
  | "const" => declaration read fuel w
  | "let" => if ← letDeclares then declaration read fuel w else wordStatement read fuel w
  | "if" => ifStatement read fuel
  | "for" => forStatement read fuel
  | "while" =>
    advance
    let test ← condition read fuel
    markupAhead
    return .mk (.whileStatement test (← read .statement))
  | "do" => doStatement read fuel
  | "try" => tryStatement read fuel
  | "switch" => switchStatement read fuel
  | "break" => return .mk (.breakStatement (← jumpLabel))
  | "continue" => return .mk (.continueStatement (← jumpLabel))
  | "return" => returnStatement read fuel
  | "throw" =>
    advance
    let e ← expressions read fuel .ending
    semicolon false
    return .mk (.throwStatement e)
  | "debugger" => verbatim do
    advance
    semicolon true
  | "with" => verbatim do
    advance
    let _ ← condition read fuel
    markupAhead
    let _ ← read .statement
  | "import" =>
    let next ← second
    if [.punct "(", .punct ".", .punct "?."].contains next.token then expressionStatement read fuel
    else verbatim (importDeclaration read fuel)
  | "export" => if ← exportDeclares then verbatim (exportDeclaration read fuel) else wordStatement read fuel w
  | w => wordStatement read fuel w

/-- Decorators before a class or an export. -/
def decoratedStatement : Read Tree := do
  let asExport : Read Tree := verbatim do
    let _ ← decorators read fuel
    word "export"
    markupAhead
    exported read fuel
  let asClass : Read Tree := do
    let _ ← decorators read fuel
    require (← whole false (classDeclaration read fuel false))
  asExport <|> asClass <|> expressionStatement read fuel

def statement : Read Tree := do
  match ← peek with
  | .punct ";" => advance; return .mk .emptyStatement
  | .punct "\x7b" => blockOr read fuel true id (expressionStatement read fuel)
  | .name w => nameStatement read fuel w
  | .punct "@" => decoratedStatement read fuel
  | .word w =>
    match ← namedDeclaration? read fuel false with
    | some d => return d
    | none => keywordStatement read fuel w
  | _ => expressionStatement read fuel

end Graft.Source
