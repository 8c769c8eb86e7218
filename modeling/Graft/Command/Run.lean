import Graft.Command.Arguments
import Graft.Files.Output
import Graft.Mods.Registry
import Graft.Patch.Session
import Graft.Text.Diff
import Graft.Version.Header
/-!
# Running commands

A command reads the bundle and the mods, and applies the patches in memory. Only `apply` writes, and only one file, at
the very end, when every patch has been applied.
-/

namespace Graft.Command

/-- What was printed, and whether the command failed. -/
structure Printed where
  out : String
  err : String

namespace Printed

def nothing : Printed := ⟨"", ""⟩

def append (a b : Printed) : Printed := ⟨a.out ++ b.out, a.err ++ b.err⟩

instance : Append Printed := ⟨append⟩

/-- Lines on the standard output. -/
def lines (ls : List String) : Printed := ⟨String.join (ls.map (· ++ "\n")), ""⟩

/-- Lines on the standard error. -/
def errorLines (ls : List String) : Printed := ⟨"", String.join (ls.map (· ++ "\n"))⟩

end Printed

/-- Why a command ends early. -/
inductive CommandError where
  | bundle (path : String) (cause : FileError)
  | mods (directory : String) (cause : RegistryError)
  | version (cause : Version.Error)
  | output (cause : OutputError)
  deriving DecidableEq, Inhabited

namespace CommandError

def message : CommandError → String
  | .bundle path _ => "failed to read bundle " ++ path
  | .mods directory _ => "failed to load mods from " ++ directory
  | .version cause => cause.message
  | .output cause => cause.message

/-- What lies behind the error, outermost first. -/
def causes : CommandError → List String
  | .bundle _ cause => [cause.message]
  | .mods _ cause => cause.message :: cause.causes
  | .version _ => []
  | .output (.file _ cause) => [cause.message]
  | .output (.noParent _) => []

/-- A text with every line after the first set in. -/
def indented (margin : String) (text : String) : String :=
  String.ofList (text.toList.flatMap fun c => if c = '\n' then '\n' :: margin.toList else [c])

/-- The causes, with numbers if there is more than one. -/
def causeLines (causes : List String) : List String :=
  match causes with
  | [] => []
  | [cause] => ["", "Caused by:", "    " ++ indented "    " cause]
  | causes =>
    ["", "Caused by:"] ++ causes.zipIdx.map fun (cause, i) => "    " ++ toString i ++ ": " ++ indented "       " cause

def printed (e : CommandError) : Printed := .errorLines (("Error: " ++ e.message) :: causeLines e.causes)

end CommandError

/-! ## Reports -/

def outcomeLine (o : Outcome) : String := (if o.changed then "✓ " else "⊙ ") ++ o.line

/-- What may be behind a failure. -/
def hints : PatchError → List String
  | .edit (.matchCount ..) =>
    ["  CONFLICT: match count differs from the manifest", "  Possible causes:",
      "    - The bundle is a different build than the mod targets",
      "    - An earlier patch already rewrote this code"]
  | .edit (.fragment _) => ["  Check the `code` of this patch's actions"]
  | .source _ => ["  An earlier text patch may have produced invalid JavaScript"]
  | _ => []

/-- The report on applied patches. -/
def report : Except Failure Session → Printed
  | .ok s => .lines (s.outcomes.map outcomeLine)
  | .error f => .errorLines (("✗ " ++ f.id ++ ": " ++ f.cause.describe) :: hints f.cause)

/-- The changes from one text of a bundle to another. -/
def diffText (bundle old new : String) : String :=
  "\n--- " ++ bundle ++ " (original)\n+++ " ++ bundle ++ " (patched)\n" ++ Diff.render old new

def versionLine (version : Option String) : String :=
  "Version: " ++ version.getD "unknown (all mods apply; pass --version to gate)"

def modLines (version : Option String) (m : Mod) : List String :=
  let status := match m.appliesTo version with
    | .ok true => "applies"
    | .ok false => "skipped"
    | .error e => "error: " ++ e.message
  (m.name ++ " (" ++ m.versionRange.getD "any version" ++ ") [" ++ status ++ "]") :: m.patches.map fun p =>
    "  - " ++ p.patch.id ++ " (" ++ p.patch.strategy.kind ++ ", " ++ p.file.getD "*" ++ ")"

/-! ## Commands -/

section
variable {m : Type → Type} [Monad m] [FileAccess m]

/-- The mods of a directory. -/
def loadMods (directory : String) : m (Printed × Except CommandError Registry) := do
  match ← Registry.empty.discover directory with
  | (.error cause, _) => return (.nothing, .error (.mods directory cause))
  | (.ok 0, r) => return (.errorLines ["Warning: no mods found in " ++ directory], .ok r)
  | (.ok _, r) => return (.nothing, .ok r)

/-- The text of a bundle before and after the patches. -/
structure Patched where
  original : String
  result : Except Failure Session

/-- The patches of a registry applied to the text of a bundle. -/
def patchWith (r : Registry) (bundle text : String) (version : Option String) :
    Printed × Except CommandError Patched :=
  match r.patchesFor bundle version with
  | .error cause => (.nothing, .error (.version cause))
  | .ok patches =>
    (.lines ["Patches: " ++ toString patches.length, ""], .ok ⟨text, applyPatches text patches⟩)

/-- Reads a bundle and the mods, and applies the mods. The version is the given one, or that of the bundle. -/
def patchBundle (bundle mods : String) (given : Option String) : m (Printed × Except CommandError Patched) := do
  match ← FileAccess.readText bundle with
  | .error cause => return (.nothing, .error (.bundle bundle cause))
  | .ok text =>
    let version := given <|> Version.detect? text
    let first := Printed.lines ["Bundle: " ++ bundle, versionLine version]
    match ← loadMods mods with
    | (printed, .error e) => return (first ++ printed, .error e)
    | (printed, .ok r) =>
      let (more, result) := patchWith r bundle text version
      return (first ++ printed ++ more, result)

/-- Writes the patched text. A single hyphen is the standard output. -/
def deliver (target text : String) : m (Printed × Bool) := do
  if target = "-" then return (⟨text, ""⟩, true)
  else
    match ← writeIfChanged target text with
    | .ok .written => return (.lines ["", "Wrote " ++ target], true)
    | .ok .unchanged => return (.lines ["", "Unchanged " ++ target], true)
    | .error cause => return ((CommandError.output cause).printed, false)

def runApply (bundle mods : String) (version out : Option String) (diff : Bool) : m (Printed × Bool) := do
  match ← patchBundle bundle mods version with
  | (printed, .error e) => return (printed ++ e.printed, false)
  | (printed, .ok ⟨original, result⟩) =>
    let printed := printed ++ report result
    match result with
    | .error _ => return (printed, false)
    | .ok s =>
      let shown : Printed :=
        if diff && s.buffer ≠ original then ⟨diffText bundle original s.buffer, ""⟩ else .nothing
      let (last, done) ← deliver (out.getD bundle) s.buffer
      return (printed ++ shown ++ last, done)

def runCheck (bundle mods : String) (version : Option String) : m (Printed × Bool) := do
  match ← patchBundle bundle mods version with
  | (printed, .error e) => return (printed ++ e.printed, false)
  | (printed, .ok ⟨_, result⟩) =>
    let done := result.toOption.isSome
    let summary := Printed.lines ["", "Summary:", if done then "  all patches apply" else "  check failed"]
    return (printed ++ report result ++ summary, done)

def runList (mods : String) (version : Option String) : m (Printed × Bool) := do
  match ← loadMods mods with
  | (printed, .error e) => return (printed ++ e.printed, false)
  | (printed, .ok r) => return (printed ++ .lines (r.mods.flatMap (modLines version)), true)

/-- Does a task; says what was printed and whether it succeeded. -/
def Task.run : Task → m (Printed × Bool)
  | .apply bundle mods version out diff => runApply bundle mods version out diff
  | .list mods version => runList mods version
  | .check bundle mods version => runCheck bundle mods version

/-- Does what arguments ask for; says what was printed, and the exit code: 2 for wrong arguments, 1 for a failure. -/
def run (args : List String) : m (Printed × Nat) := do
  match request args with
  | .text text => return (⟨text, ""⟩, 0)
  | .usageError command cause => return (⟨"", cause.text command⟩, 2)
  | .task t =>
    let (printed, done) ← t.run
    return (printed, if done then 0 else 1)

end
end Graft.Command
