import Graft.Edit.InPlace
import Graft.Edit.Step
/-!
# Running scripts

A run changes an editor as it goes and may fail on the way; what it had done until then stays done. On a match
a run works with the cursor there, and the cursor comes back afterwards.
-/

namespace Graft
namespace Editor

namespace Run

/-- A search: it changes links only. -/
def ofSearch (f : Editor → List NodeId × Editor) : Run (List NodeId) := fun e =>
  let (found, e) := f e
  (.ok found, e)

/-- Runs with the cursor elsewhere. -/
def there {α : Type} (id : NodeId) (run : Run α) : Run α := fun e =>
  let (result, e') := run (e.moveTo id)
  (result, e'.moveTo e.current)

/-- Runs at each of these nodes in order, up to the first failure. -/
def each {α : Type} (run : Run α) : List NodeId → Run (List α)
  | [] => pure []
  | id :: rest => do return (← there id run) :: (← each run rest)

end Run

/-- Runs on every match of a specification, if there are as many as expected. -/
def findEach {α : Type} (spec : MatchSpec) (expected : Option Nat) (run : Run α) : Run (List α) := do
  let found ← Run.ofSearch fun e => e.findAll spec
  ExceptT.mk (pure (checkCount spec.describe expected found.length))
  Run.each run found

/-- Runs on every match of a raw pattern, if there are as many as expected. -/
def findPatternEach {α : Type} (pattern : Json) (expected : Option Nat) (run : Run α) : Run (List α) := do
  let found ← Run.ofSearch fun e => e.findPattern pattern
  ExceptT.mk (pure (checkCount ("raw pattern " ++ pattern.compact) expected found.length))
  Run.each run found

/-! ## Steps and actions -/

/-- The value of a change: data before code. -/
def changeValue? (value : Option Json) (code : Option String) : Option ChangeValue :=
  match value, code with
  | some value, _ => some (.data value)
  | none, some code => some (.code code)
  | none, none => none

mutual
/-- Runs a step; a specification goes before a raw pattern. -/
def runStep : Step → Run Unit
  | .mk (some spec) _ expected actions => discard (findEach spec expected (runActions actions))
  | .mk none (some pattern) expected actions => discard (findPatternEach pattern expected (runActions actions))
  | .mk none none _ _ => Run.fail .runStep .noCriterion

def runActions : List Action → Run Unit
  | [] => pure ()
  | action :: rest => do
    runAction action
    runActions rest

def runAction : Action → Run Unit
  | .insert position code => perform (.insert position code)
  | .wrap code => perform (.wrap code)
  | .change method value code =>
    match changeValue? value code with
    | some v => perform (.change method v)
    | none => Run.fail .change .noValue
  | .gotoChild field (some index) => perform (.gotoElement field index)
  | .gotoChild field none => perform (.gotoChild field)
  | .gotoParent => perform .gotoParent
  | .find step => runStep step
end

/-- Runs steps one after another. -/
def runSteps : List Step → Run Unit
  | [] => pure ()
  | step :: rest => do
    runStep step
    runSteps rest

end Editor
end Graft
