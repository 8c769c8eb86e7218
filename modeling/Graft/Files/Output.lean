import Graft.Files.Access
/-!
# Writing results

A file that holds a text already is left alone.
-/

namespace Graft

inductive WriteOutcome where
  | written
  | unchanged
  deriving DecidableEq, Inhabited

inductive OutputError where
  | file (path : String) (cause : FileError)
  | noParent (path : String)
  deriving DecidableEq, Inhabited

def OutputError.message : OutputError → String
  | .file path cause => "failed to write " ++ path ++ ": " ++ cause.message
  | .noParent path => "path has no parent directory: " ++ path

section
variable {m : Type → Type} [Monad m] [FileAccess m]

/-- Writes a text to a path. -/
def write (path text : String) : m (Except OutputError WriteOutcome) := do
  if (Path.parent? path).isNone then return .error (.noParent path)
  else
    match ← FileAccess.replaceFile path text with
    | .ok _ => return .ok .written
    | .error cause => return .error (.file path cause)

/-- Writes a text to a path unless the file there holds it. -/
def writeIfChanged (path text : String) : m (Except OutputError WriteOutcome) := do
  match ← FileAccess.readText path with
  | .ok old => if old = text then return .ok .unchanged else write path text
  | .error _ => write path text

end
end Graft
