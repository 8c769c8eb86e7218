import Graft.Source.State
import Graft.Source.Literal
/-!
# Items

The readers of one level of nesting: here and in the modules after this one each takes a reader for every nested goal
(`read`) and a bound for its loops (`fuel`). First the parts that everything else is made of: expressions between commas,
names, template literals, and the lists between brackets, whose items are read as values and as parts of a pattern at once.
-/

namespace Graft.Source

open Read

variable (read : Readers) (fuel : Nat)

/-! ## Parts -/

def expressionTree (mode : Mode) : Read Tree := do require (← read (.expression mode)).closed?

/-- One expression, or several between commas as a sequence. -/
def expressions (mode : Mode) : Read Tree := do
  let first ← expressionTree read mode
  let more ← collect (do
    if ← mode.stops then return none
    else if ← punct? "," then some <$> expressionTree read mode.behind
    else return none) fuel []
  if more.isEmpty then return first else return .mk (.sequenceExpression (first :: more))

/-- Expressions in parentheses, as after `if`. -/
def condition : Read Tree := do
  punct "("
  let e ← expressions read fuel .inner
  punct ")"
  return e

def identifierTree (name : String) : Tree := .mk (.identifier name)

/-- A name that binds something. -/
def bindingName : Read Tree := do
  match ← peek with
  | .word w =>
    guardThat !(isReserved w)
    advance
    return identifierTree w
  | _ => failure

/-- Passes the characters of a template literal to its end, or to its next substitution. The next `skipped` characters
belong to an escape sequence. -/
def templateChars : Nat → List Char → Option (Bool × List Char)
  | _, [] => none
  | skipped + 1, _ :: rest => templateChars skipped rest
  | 0, c :: rest =>
    if c = '\x60' then some (true, rest)
    else if c = '\\' then
      match escapeLength? rest with
      | some n => templateChars n rest
      | none => none
    else
      match c, rest with
      | '$', '\x7b' :: rest => some (false, rest)
      | _, _ => templateChars 0 rest

/-- Reads on from inside a template literal to its end, and gives the text after it. -/
def templateRest : Nat → List Char → Read (List Char)
  | 0, _ => failure
  | n + 1, cs => do
    let (ended, rest) ← require (templateChars 0 cs)
    if ended then return rest
    else
      set (State.ofText true rest)
      let _ ← expressions read fuel .inner
      guardThat (← isPunct "\x7d")
      templateRest n (← get).rest

/-- A template literal; the token is its opening backtick. -/
def template : Read Unit := do
  let rest ← templateRest read fuel fuel (← get).rest
  resume rest

/-! ## Lists -/

/-- An item of a parenthesized list: an expression, or the argument of three dots. -/
structure Item where
  rest : Bool
  reading : Reading

namespace Item

/-- As an expression between commas. -/
def value? (i : Item) : Option Tree := if i.rest then none else i.reading.closed?

def argument? (i : Item) : Option Tree :=
  if i.rest then i.reading.closed?.map fun t => .mk (.spreadElement t) else i.reading.closed?

/-- As a parameter or an element of a pattern. -/
def element? (i : Item) : Option Tree :=
  if i.rest then i.reading.pattern.map fun p => .mk (.restElement p) else i.reading.element?

end Item

def item (mode : Mode) : Read Item := do
  let rest ← punct? "..."
  return ⟨rest, ← read (.expression mode)⟩

/-- Items up to the closing mark, which is taken; `none` stands for an empty place. Also says whether a
comma came last. An empty place may stand before the first item. -/
def itemsUntil (first later : Mode) (close : String) : Nat → Bool → List (Option Item) → Read (List (Option Item) × Bool)
  | 0, _, _ => failure
  | n + 1, afterComma, acc => do
    if ← punct? close then return (acc.reverse, afterComma)
    else if ← punct? "," then itemsUntil first later close n true (none :: acc)
    else
      let i ← item read (if acc.isEmpty || acc.length = 1 && acc.all Option.isNone then first else later)
      if ← punct? "," then itemsUntil first later close n true (some i :: acc)
      else
        punct close
        return ((some i :: acc).reverse, false)

/-- Arguments from the items of a parenthesized list. Empty places vanish. -/
def argumentsOf (items : List (Option Item)) : Option (List Tree) := (items.filterMap id).mapM Item.argument?

/-- The arguments of a call. -/
def arguments : Read (List Tree) := do
  punct "("
  let (items, _) ← itemsUntil read .inner .inner ")" fuel false []
  require (argumentsOf items)

/-- Parameters from the items of a parenthesized list, which may not have empty places. -/
def parametersOf (items : List (Option Item)) : Option (List Tree) :=
  items.mapM fun i => i.bind Item.element?

def parameters : Read (List Tree) := do
  punct "("
  let (items, _) ← itemsUntil read .binding .binding ")" fuel false []
  require (parametersOf items)

end Graft.Source
