import Graft.Edit.Script
import Graft.Regex.Template
import Graft.Text.Replace
/-!
# Patches

A patch changes the text of a bundle: as a whole, where a regular expression matches, where a literal text occurs, or in
its syntax tree. `Patch.run` gives the new text, and for the two kinds that count them, the number of matches.
-/

namespace Graft

/-- What a patch does with a text. -/
inductive Strategy where
  | process (transform : String → Except String String)
  | regex (pattern replacement : String) (expected : Option Nat)
  | replace (old new : String) (expected : Option Nat)
  | ast (edit : Editor.Run Unit)

def Strategy.kind : Strategy → String
  | .process _ => "process"
  | .regex .. => "regex"
  | .replace .. => "replace"
  | .ast _ => "ast"

structure Patch where
  id : String
  strategy : Strategy

/-- The patch with the name of a mod in front of its id. -/
def Patch.inMod (modName : String) (p : Patch) : Patch := { p with id := modName ++ "/" ++ p.id }

/-- Why a patch fails. -/
inductive PatchError where
  | edit (cause : EditError)
  | source (cause : Source.SyntaxError)
  | pattern (pattern : String)
  | process (message : String)
  deriving DecidableEq, Inhabited

namespace PatchError

/-- The wording, where it is known in full. -/
def message? : PatchError → Option String
  | .edit cause => cause.message?
  | .source _ => none
  | .pattern _ => none
  | .process message => some ("process patch failed: " ++ message)

/-- A wording for every failure. -/
def describe (e : PatchError) : String :=
  let cause (c : Source.SyntaxError) : String := c.message?.getD "syntax error"
  match e with
  | .edit (.fragment c) => "failed to parse code fragment: " ++ cause c
  | .source c => "failed to parse bundle source: " ++ cause c
  | .pattern p => "invalid regex pattern '" ++ p ++ "'"
  | e => e.message?.getD ""

end PatchError

namespace Strategy

/-- The count that a text strategy expects has to be met. -/
def counted (what : String) (expected : Option Nat) (result : String × Nat) :
    Except PatchError (String × Option Nat) := do
  (checkCount what expected result.2).mapError .edit
  return (result.1, some result.2)

/-- The text after a strategy was applied, and the number of matches where they are counted. -/
def run (s : Strategy) (text : String) : Except PatchError (String × Option Nat) :=
  match s with
  | .process transform =>
    match transform text with
    | .ok result => .ok (result, none)
    | .error message => .error (.process message)
  | .regex pattern replacement expected =>
    match Regex.compile? pattern with
    | none => .error (.pattern pattern)
    | some r => counted ("regex '" ++ pattern ++ "'") expected (r.replaceAll text replacement)
  | .replace old new expected => counted ("literal '" ++ old ++ "'") expected (Text.replaceLiteral text old new)
  | .ast edit =>
    match Source.readProgram text with
    | .error cause => .error (.source cause)
    | .ok t =>
      match edit.run (Editor.ofTree t) with
      | (.ok _, e) => .ok (e.print, none)
      | (.error cause, _) => .error (.edit cause)

end Strategy
end Graft
