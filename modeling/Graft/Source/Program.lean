import Graft.Source.Statement
import Graft.Source.Markup
/-!
# Programs and fragments

The readers tied together: `readers` answers a goal by the rules of one level, which put their own goals
to the readers of one step less. The steps are bounded by the length of the text, which no nesting can
exceed. A text is read as a whole or refused.
-/

namespace Graft.Source

open Read

/-- Why a text cannot be read. -/
inductive SyntaxError where
  | invalid
  | unexpectedShape (found : String)
  deriving DecidableEq, Inhabited

/-- The wording, where there is one of its own. -/
def SyntaxError.message? : SyntaxError → Option String
  | .invalid => none
  | .unexpectedShape found => some ("expected a single expression, found `" ++ found ++ "`")

/-- The reader of a goal within a number of steps. -/
def readers (sense : AwaitSense) : Nat → {α : Type} → Goal α → Read α
  | 0, _, _ => failure
  | fuel + 1, _, .expression mode => operation (readers sense fuel) fuel mode 1
  | fuel + 1, _, .operation mode least => operation (readers sense fuel) fuel mode least
  | fuel + 1, _, .unary mode => unary (readers sense fuel) fuel mode
  | fuel + 1, _, .statement => statement (readers sense fuel) fuel
  | fuel + 1, _, .markup => markup (readers sense fuel) fuel
  | _ + 1, _, .awaitSense => return sense

/-- Steps enough for a text. -/
def steps (cs : List Char) : Nat := 4 * cs.length + 16

/-- The first line of a script that names its interpreter. -/
def interpreterLine : Read (Option Tree) := do
  match ← textAhead with
  | '#' :: '!' :: rest =>
    let start ← textAhead
    let after := rest.dropWhile (· ≠ '\n')
    set (State.ofText true after)
    return some (.mk (.verbatim (slice start after)))
  | _ => return none

/-- All statements of a text. -/
def program (sense : AwaitSense) (fuel : Nat) : Read (List Tree) := do
  let line ← interpreterLine
  let body ← collect (do
    if (← peek) = .ended then return none else some <$> readers sense fuel .statement) fuel []
  return line.toList ++ body

/-- Runs a reader on a text. Only where the context misleads is `await` taken as a name, or else as an operator, throughout. -/
def run {α : Type} (reader : AwaitSense → Nat → Read α) (text : String) : Option α :=
  let cs := text.toList
  let result (sense : AwaitSense) : Option α := ((reader sense (steps cs)).run (State.ofText true cs)).map Prod.fst
  result .byContext <|> result .name <|> result .operator

/-- Reads a text as a list of statements. -/
def readStatements (text : String) : Except SyntaxError (List Tree) :=
  match run program text with
  | some body => .ok body
  | none => .error .invalid

/-- Reads a text as a program. -/
def readProgram (text : String) : Except SyntaxError Tree :=
  (readStatements text).map fun body => .mk (.program body)

/-- One parenthesized expression that is the whole text. -/
def wholeExpression (sense : AwaitSense) (fuel : Nat) : Read Tree := do
  punct "("
  let e ← expressions (readers sense fuel) fuel .element
  punct ")"
  guardThat ((← peek) = .ended)
  return e

/-- The text between parentheses. The line break keeps a comment at the end from hiding the last one. -/
def wrapped (text : String) : String := "(" ++ text ++ "\n)"

/-- Reads a text as a single expression. -/
def readExpression (text : String) : Except SyntaxError Tree :=
  match run wholeExpression (wrapped text) with
  | some e => .ok e
  | none =>
    match run program (wrapped text) with
    | some _ => .error (.unexpectedShape (Unicode.trim (wrapped text)))
    | none => .error .invalid

end Graft.Source
