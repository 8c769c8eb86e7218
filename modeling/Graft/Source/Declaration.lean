import Graft.Source.Expression
/-!
# Declarations

What binds names: variables, functions and classes. A declaration with `using` is kept as its source text.
-/

namespace Graft.Source

open Read

variable (read : Readers) (fuel : Nat)

/-- A statement kept as its source text. -/
def verbatim (body : Read Unit) : Read Tree := do
  let start ← textAhead
  body
  return .mk (.verbatim (← sourceFrom start))

def expressionStatement : Read Tree := do
  let e ← expressions read fuel .statement
  semicolon false
  return .mk (.expressionStatement e)

/-! ## Declarations -/

/-- A name or a destructuring pattern. -/
def bindingTarget : Read Tree := do
  match ← peek with
  | .word _ => bindingName
  | .punct "[" => require (← array read fuel .binding .binding).pattern
  | .punct "\x7b" => require (← object read fuel .binding .binding).pattern
  | _ => failure

def declarator (mode : Mode) : Read Tree := do
  let id ← bindingTarget read fuel
  let assigns ← if ← mayEndHere true then pure false else punct? "="
  let init ← if assigns then some <$> expressionTree read mode else pure none
  return .mk (.variableDeclarator id init)

def hasInitializer : Tree → Bool
  | .mk (.variableDeclarator _ init) => init.isSome
  | _ => false

/-- Declarators between commas, the keyword having been taken. -/
def declarators : Read (List Tree) := do
  let first ← declarator read fuel .ending
  declaratorsAfter fuel [first]
where
  /-- Further declarators; the last one comes first. -/
  declaratorsAfter : Nat → List Tree → Read (List Tree)
    | 0, _ => failure
    | n + 1, ds => do
      if ← mayEndHere !((ds.head?.map hasInitializer).getD false) then return ds.reverse
      else if ← punct? "," then declaratorsAfter n ((← declarator read fuel .ending) :: ds)
      else return ds.reverse

def declaration (kind : String) : Read Tree := do
  advance
  let ds ← declarators read fuel
  semicolon !((ds.getLast?.map hasInitializer).getD false)
  return .mk (.variableDeclaration (.ofWord kind) ds)

/-- Can a declaration go on with this token? -/
def startsBinding : Token → Bool
  | .word w => !(["in", "instanceof"].contains w)
  | .punct p => p = "[" || p = "\x7b"
  | _ => false

/-- Does `let` declare here, rather than name? -/
def letDeclares : Read Bool := do
  let next ← second
  return !(mayEnd false next.previous) && startsBinding next.token

/-- Does the function or class keyword here declare a name? -/
def declaresName : Read Bool := do
  let next ← second
  match next.token with
  | .word w => return !(isReserved w)
  | .punct "*" =>
    match (State.ofText true next.rest).token with
    | .word _ => return true
    | _ => return false
  | _ => return false

/-- Is this `async` with a function that has a name? Unless it is `bare`, they stand on one line. -/
def asyncDeclares (bare : Bool) : Read Bool := do
  if ← isWord "async" then
    let next ← second
    if next.token = .word "function" && (bare || !(mayEnd false next.previous)) then
      let s ← get
      set next
      let named ← declaresName
      set s
      return named
    else return false
  else return false

def classDeclaration (bare : Bool) : Read Tree := do
  let c ← classRest read fuel true
  let _ ← insertedSemicolon bare
  return .mk (.classDeclaration c)

/-- A declaration, unless its text can only be an operand of what follows it. `bare` says that no expression could stand
here. -/
def whole (bare : Bool) (body : Read Tree) : Read (Option Tree) := do
  let s ← get
  let t ← body
  if onlyContinues (← peek) || (!bare && (← asksAhead)) then
    set s
    return none
  else return some t

/-- A function or class declaration, if one stands here. `bare` says that no expression could stand here. -/
def namedDeclaration? (bare : Bool) : Read (Option Tree) := do
  if ← asyncDeclares bare then
    whole bare do
      advance
      return .mk (.functionDeclaration (← functionRest read fuel true true bare))
  else if (← isWord "function") && (← declaresName) then
    whole bare do return .mk (.functionDeclaration (← functionRest read fuel false true bare))
  else if (← isWord "class") && (← declaresName) then
    whole bare (classDeclaration read fuel bare)
  else return none

/-- Does a statement begin here that declares with `using` or `await using`? -/
def usingDeclares : Read Bool := do
  let next ← second
  return (← isWord "using") || ((← isWord "await") && next.token = .word "using" && !(mayEnd false next.previous))

def usingDeclaration : Read Unit := do
  let _ ← word? "await"
  word "using"
  markupAhead
  let ds ← declarators read fuel
  semicolon !((ds.getLast?.map hasInitializer).getD false)

end Graft.Source
