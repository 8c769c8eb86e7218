import Graft.Regex.Program
import Graft.Regex.Reader
/-!
# Compiled patterns

A `Regex` is a pattern that has been accepted. Its matches in a text do not overlap, and an empty match does
not follow directly on the match before it.
-/

namespace Graft

structure Regex where
  program : Regex.Program
  entry : Nat
  names : List (String × Nat)

namespace Regex

/-- Compiles a pattern, if it is valid and not too large. -/
def compile? (pattern : String) : Option Regex := do
  let (e, names) ← read? pattern
  if Expr.sizeLimit < e.size then none
  let (entry, program) := Program.compile e 0 #[.accept]
  return { program := program, entry := entry, names := names }

/-- The leftmost match that starts at a position or after it. -/
def search? (r : Regex) (text : Array Char) (start : Nat) : Option Program.Match :=
  r.program.searchFrom r.entry text (text.size + 1 - start) start {}

/-- The matches from a position on. `last` is where the match before ended. -/
def matchesFrom (r : Regex) (text : Array Char) : Nat → Nat → Option Nat → List Program.Match
  | 0, _, _ => []
  | fuel + 1, start, last =>
    match r.search? text start with
    | none => []
    | some m =>
      if m.start = m.stop && last = some m.stop then
        match r.search? text (start + 1) with
        | none => []
        | some m => m :: matchesFrom r text fuel m.stop (some m.stop)
      else m :: matchesFrom r text fuel m.stop (some m.stop)

/-- All matches in a text. -/
def «matches» (r : Regex) (text : Array Char) : List Program.Match := r.matchesFrom text (text.size + 2) 0 none

/-- The text of a group in a match; the match itself is group 0. -/
def groupText (text : Array Char) (m : Program.Match) (index : Nat) : List Char :=
  if index = 0 then (text.extract m.start m.stop).toList
  else
    match m.slots.lookup (2 * index), m.slots.lookup (2 * index + 1) with
    | some start, some stop => (text.extract start stop).toList
    | _, _ => []

end Regex
end Graft
