import Graft.Source.Item
/-!
# Blocks and functions

Where a block and an object could both stand, the block comes first unless its text is better read as an object.
-/

namespace Graft.Source

open Read

variable (read : Readers) (fuel : Nat)

/-! ## Functions -/

/-- Statements up to the brace that closes them, which is taken. -/
def statementsUntilBrace : Read (List Tree) :=
  collect (do if ← punct? "\x7d" then return none else some <$> read .statement) fuel []

/-- A block in a place where only a block can stand, with the semicolon that may be inserted after it. `bare` says that no
operator could follow the block. -/
def block (bare : Bool) : Read Tree := do
  punct "\x7b"
  let body ← statementsUntilBrace read fuel
  let _ ← insertedSemicolon bare
  return .mk (.blockStatement body)

/-- A function from its keyword on. `bare` says that no operator could follow it. -/
def functionRest (isAsync named bare : Bool) : Read (Func Tree) := do
  word "function"
  let generator ← punct? "*"
  markupAhead
  let id ← if (← isPunct "(") && !named then pure none else some <$> bindingName
  markupAhead
  let params ← parameters read fuel
  markupAhead
  let body ← block read fuel bare
  return { id := id, params := params, body := body, isAsync := isAsync, generator := generator }

/-! ## Braces -/

/-- Could these statements be the members of an object as well, an empty call with something behind it being a method? -/
def couldBeMembers : List Tree → Bool
  | .mk (.expressionStatement (.mk (.callExpression (.mk (.identifier _)) [] _))) :: _ :: _ => true
  | _ => false

/-- The reserved words that no statement and no expression begins with. -/
def isIdleWord (w : String) : Bool :=
  ["case", "catch", "default", "else", "extends", "finally", "in", "instanceof"].contains w

/-- Can this token only begin a statement, and not a member of an object, where both are possible? -/
def onlyBeginsStatement : Token → Bool
  | .word w =>
    (isReserved w && !isIdleWord w && w ≠ "export") || w = "yield" || w = "undefined" || w = "using"
  | _ => false

/-- Can this token only go on with an expression, and not begin a statement? -/
def onlyContinues : Token → Bool
  | .word w => w = "in" || w = "instanceof"
  | .punct p =>
    [".", "?.", "?", ",", "=", "=>", "*", "**", "%", "&&", "||", "??", "|", "&", "^", "==", "!=", "===", "!==", ">", "<=",
      ">=", "<<", ">>", ">>>", "+=", "-=", "*=", "%=", "**=", "<<=", ">>=", ">>>=", "&=", "|=", "^=", "&&=", "||=",
      "??="].contains p
  | _ => false

/-- Does a conditional go on from here? -/
def asksAhead : Read Bool := do return (← Mode.statement.questionAhead?).isSome

/-- A block in a place where an object could stand as well: in front, an idle word is a name. Gives the statements, and whether
a semicolon was inserted after them. -/
def blockOrObject (bare : Bool) : Read (List Tree × Bool) := do
  punct "\x7b"
  let s ← get
  match s.token with
  | .word w => if isIdleWord w then set { s with token := .name w }
  | _ => pure ()
  let body ← statementsUntilBrace read fuel
  return (body, ← insertedSemicolon (bare && !body.isEmpty))

/-- Do the first two tokens between braces settle that they hold statements? A word, number or string that a semicolon can
be inserted after is a statement, and so is a name that an operator follows. -/
def settlesBlock : Read Bool := do
  punct "\x7b"
  let first ← get
  let next ← second
  let ends := match first.token with
    | .word _ =>
      mayEnd false next.previous || [.punct ",", .punct "=", .word "in", .word "instanceof"].contains next.token ||
        (State.ofText true first.rest).token ≠ next.token
    | .number _ | .string _ => mayEnd false next.previous
    | _ => false
  return onlyBeginsStatement first.token || ends

/-- Does a word with a colon come first between braces, as a label or a key? -/
def startsLabel : Read Bool := do
  punct "\x7b"
  match ← peek with
  | .word _ => return (← second).token = .punct ":"
  | _ => return false

/-- A block unless its text is better read otherwise: where a label could be a key, where in the place of a statement
(`bare`) the statements could be members, or where the block cannot be followed by what comes after it, the other reading
comes first. -/
def blockOr {α : Type} (bare : Bool) (wrap : Tree → α) (other : Read α) : Read α := do
  let s ← get
  let other : Read α := if ((settlesBlock.run s).map Prod.fst).getD true then failure else other
  let asBlock : Read α := do
    set s
    match (blockOrObject read fuel bare).run s with
    | some ((body, ended), after) =>
      let take : Read α := do
        set after
        return wrap (.mk (.blockStatement body))
      let goesOn := if bare then onlyContinues after.token else after.token = .template || after.token = .punct "="
      if bare && ((asksAhead.run after).map Prod.fst).getD false then other
      else if (bare && couldBeMembers body) || (goesOn && !ended) then other <|> take else take
    | none => other
  if ((startsLabel.run s).map Prod.fst).getD false then other <|> asBlock else asBlock

/-- The body of an arrow. -/
def arrowBody (mode : Mode) : Read Tree := do
  let value := expressionTree read mode.behind
  if ← isPunct "\x7b" then blockOr read fuel false id value else value

/-- An arrow function from its arrow on. -/
def arrowRest (mode : Mode) (isAsync : Bool) (params : List Tree) : Read Reading := do
  punct "=>"
  let body ← arrowBody read fuel mode
  let f : Func Tree := { id := none, params := params, body := body, isAsync := isAsync, generator := false }
  return .ofExpression (.mk (.arrowFunctionExpression f)) .other

end Graft.Source
