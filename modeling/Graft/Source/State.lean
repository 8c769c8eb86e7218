import Graft.Source.Token
import Graft.Source.Semicolon
import Graft.Syntax.Tree
/-!
# Reading state

A reader looks one token ahead. It fails as a whole or gives a value and the state after it; a failed
alternative leaves no trace.

An operand is read as an expression and as a pattern at once (`Reading`), because only what follows
tells `[a, b]` from `[a, b] = c` and `(a, b)` from `(a, b) => c`.
-/

namespace Graft.Source

structure State where
  token : Token
  /-- The text from the first character of the token on. -/
  start : List Char
  /-- The text after the token. -/
  rest : List Char
  /-- The text after the last token that was taken. -/
  previous : List Char

/-- A reader of `α`. -/
abbrev Read (α : Type) := StateT State Option α

namespace State

/-- Looks at the first token of a text; `markup` says whether markup comments are skipped before it. -/
def ofText (markup : Bool) (previous : List Char) : State :=
  let start := skipGap markup previous
  let (t, rest) := nextToken start
  { token := t, start := start, rest := rest, previous := previous }

end State

namespace Read

def peek : Read Token := do return (← get).token

/-- Takes the token. -/
def advance : Read Unit := modify fun s => State.ofText (!s.token.endsOperand) s.rest

/-- Goes on after a piece of text that was read character by character and ends an operand. -/
def resume (rest : List Char) : Read Unit := set (State.ofText false rest)

def textAhead : Read (List Char) := do return (← get).start

/-- The source from a point to the end of the last token taken. -/
def sourceFrom (start : List Char) : Read String := do return slice start (← get).previous

def isPunct (p : String) : Read Bool := do return (← get).token = .punct p

def isWord (w : String) : Read Bool := do return (← get).token = .word w

def punct (p : String) : Read Unit := do if ← isPunct p then advance else failure

def word (w : String) : Read Unit := do if ← isWord w then advance else failure

/-- Takes a punctuator if it stands here. -/
def punct? (p : String) : Read Bool := do
  if ← isPunct p then
    advance
    return true
  else return false

def word? (w : String) : Read Bool := do
  if ← isWord w then
    advance
    return true
  else return false

def isSign : Read Bool := do return (← isPunct "+") || (← isPunct "-")

/-- Is there no comment in front of the token? -/
def noComment : Read Bool := do
  let s ← get
  return (s.previous.take (s.previous.length - s.start.length)).all isBlank

/-- The token after this one, which is left in place. -/
def second : Read State := do
  let s ← get
  return State.ofText (!s.token.endsOperand) s.rest

def require {α : Type} : Option α → Read α
  | some a => pure a
  | none => failure

def guardThat (b : Bool) : Read Unit := if b then pure () else failure

/-- Runs a reader as long as it gives something. -/
def collect {α : Type} (body : Read (Option α)) : Nat → List α → Read (List α)
  | 0, _ => failure
  | fuel + 1, acc => do
    match ← body with
    | some a => collect body fuel (a :: acc)
    | none => return acc.reverse

/-- May a statement end after the last token, without a semicolon of its own? -/
def mayEndHere (bare : Bool) : Read Bool := do
  let s ← get
  return mayEnd bare s.previous

/-- Inserts a semicolon if a statement may end here. -/
def insertedSemicolon (bare : Bool) : Read Bool := do
  match insertion? bare (← get).previous with
  | some rest =>
    set (State.ofText true rest)
    return true
  | none => return false

/-- The end of a statement: a semicolon, inserted or written. -/
def semicolon (bare : Bool) : Read Unit := do
  if !(← insertedSemicolon bare) then punct ";"

/-- What was taken last is no operand, so that markup comments may follow it. -/
def markupAhead : Read Unit := modify fun s => State.ofText true s.previous

end Read

/-! ## Chains -/

end Graft.Source

namespace Graft.Tree

/-- Is this a member or call chain with an optional link that nothing has closed off yet? -/
def isOpenChain : Tree → Bool
  | .mk (.memberExpression object _ _ optional) => optional || isOpenChain object
  | .mk (.callExpression callee _ optional) => optional || isOpenChain callee
  | _ => false

/-- Ends an optional chain: what follows is no longer cut short with it. -/
def closeChain (t : Tree) : Tree := if t.isOpenChain then .mk (.chainExpression t) else t

end Graft.Tree

namespace Graft.Source

/-! ## Operands -/

inductive OperandKind where
  | primary
  | construction
  | other
  deriving DecidableEq

/-- What an operand can be. The expression may still be an open chain. -/
structure Reading where
  /-- As an expression. -/
  expression : Option Tree
  /-- As an element of a pattern. -/
  pattern : Option Tree
  /-- As an element of a pattern with a default. -/
  defaulted : Option Tree
  /-- As the left side of an assignment. -/
  target : Option Tree
  /-- May it stand left of an assignment that computes? -/
  simple : Bool
  kind : OperandKind

namespace Reading

def ofExpression (t : Tree) (kind : OperandKind) : Reading :=
  { expression := some t, pattern := none, defaulted := none, target := none, simple := false, kind := kind }

/-- A name or a member access. -/
def ofReference (t : Tree) : Reading :=
  { expression := some t, pattern := some t.closeChain, defaulted := none, target := some t.closeChain, simple := true
    kind := .primary }

/-- An expression in parentheses. -/
def ofParenthesized (t : Tree) : Reading :=
  { expression := some t, pattern := none, defaulted := none, target := some t, simple := true, kind := .primary }

/-- An array or object, as a literal and as a destructuring pattern. -/
def ofBraces (literal pattern : Option Tree) : Reading :=
  { expression := literal, pattern := pattern, defaulted := none, target := pattern, simple := false, kind := .primary }

/-- Is this an array or object whose parts were read both as values and as patterns? As a pattern it is no expression that a
statement could end with. -/
def isSplit (r : Reading) : Bool :=
  match r.target with
  | some (.mk (.arrayPattern es)) => !es.isEmpty
  | some (.mk (.objectPattern [])) => false
  | some (.mk (.objectPattern [.mk (.property _ (.mk (.identifier _)) _ _ shorthand _)])) => !shorthand
  | some (.mk (.objectPattern _)) => true
  | _ => false

/-- The expression, its chain closed. -/
def closed? (r : Reading) : Option Tree := r.expression.map Tree.closeChain

/-- A parameter or an element of a pattern, with or without default. -/
def element? (r : Reading) : Option Tree := r.pattern.orElse fun _ => r.defaulted

end Reading

/-- What an expression is there for. -/
inductive Role where
  /-- As the beginning of a statement. -/
  | statement
  /-- As an operand in which `await` is a name. -/
  | named
  /-- As a summand in which `await` is a name before a sign. -/
  | summand
  /-- For its value. -/
  | value
  /-- For its value between the marks of a conditional. -/
  | branch
  /-- As an item of an array, an object or parentheses that a pattern could begin with as well. -/
  | element
  /-- As a parameter or a part of a pattern that declares, its default included. -/
  | binding
  deriving DecidableEq

/-- Where an expression stands: whether its end may be the end of a statement, whether `in` belongs to a loop head, and
what it is there for. -/
structure Mode where
  ends : Bool
  noIn : Bool
  role : Role

/-- Does a statement end here, after a whole expression? A semicolon that can be inserted comes before anything else that
could follow. -/
def Mode.stops (mode : Mode) : Read Bool := if mode.ends then Read.mayEndHere false else pure false

namespace Mode

def statement : Mode := ⟨true, false, .statement⟩

/-- At the end of a statement that begins with something else. -/
def ending : Mode := ⟨true, false, .value⟩

/-- Between brackets of any kind. -/
def inner : Mode := ⟨false, false, .value⟩

/-- Between the marks of a conditional. -/
def branch : Mode := ⟨false, false, .branch⟩

/-- In front between brackets that could hold a pattern. -/
def element : Mode := ⟨false, false, .element⟩

/-- In a list of parameters or in a pattern that declares. -/
def binding : Mode := ⟨false, false, .binding⟩

/-- Behind the first token of an expression: what stands there begins no statement and is no element of a pattern. -/
def behind (mode : Mode) : Mode :=
  if mode.role = .element || mode.role = .statement then { mode with role := .value } else mode

/-- In the brackets of a member's name. -/
def key (mode : Mode) : Mode := if mode.role = .element then mode else .inner

/-- Is `of` behind a word the one of a loop head here, and no name? -/
def takesOf (mode : Mode) : Bool := mode.ends || mode.noIn || mode.role = .branch

/-- The text after the question mark of a conditional that comes next. Where a statement could end, a slash right in front
of the mark is part of it. -/
def questionAhead? (mode : Mode) : Read (Option (List Char)) := do
  let s ← get
  let rest : Option (List Char) := match s.token, s.rest with
    | .punct "?", rest => some rest
    | .punct "/", '?' :: rest => if mode.ends && loneQuestion rest then some rest else none
    | _, _ => none
  return if questionMayFollow mode.ends s.previous then rest else none

end Mode

/-- What the word `await` is wherever it could be a name or an operator: what the text around it says, or always the same. -/
inductive AwaitSense where
  | byContext
  | name
  | operator
  deriving DecidableEq

/-- What the grammar calls itself for. -/
inductive Goal : Type → Type 1 where
  | expression (mode : Mode) : Goal Reading
  | operation (mode : Mode) (least : Nat) : Goal Reading
  | unary (mode : Mode) : Goal Reading
  | statement : Goal Tree
  | markup : Goal (List Char)
  /-- How `await` is read wherever it can be read in two ways. -/
  | awaitSense : Goal AwaitSense

/-- A reader for every goal. -/
abbrev Readers := {α : Type} → Goal α → Read α

end Graft.Source
