import Graft.Files.Access
import Graft.Manifest.Issue
import Graft.Toml.Reader
/-!
# Loading manifests

A manifest is a TOML document. It is loaded from a text or from a file, and has to be valid.
-/

namespace Graft
namespace Manifest

/-- Why a manifest cannot be loaded; with the path of the file if it comes from one. -/
inductive LoadError where
  | file (path : String) (cause : FileError)
  | toml (path : Option String)
  | invalid (path : Option String) (issues : List Issue)
  deriving DecidableEq, Inhabited

namespace LoadError

def withPath (path : String) : LoadError → LoadError
  | .toml none => .toml (some path)
  | .invalid none issues => .invalid (some path) issues
  | e => e

/-- The path in parentheses, where there is one. -/
def place (path : Option String) : String :=
  match path with
  | some p => " (" ++ p ++ ")"
  | none => ""

/-- What lies behind the error, outermost first. -/
def causes : LoadError → List String
  | .file _ cause => [cause.message]
  | .toml _ => ["TOML parse error"]
  | .invalid _ issues => ["\n".intercalate (issues.map Issue.message)]

def message (e : LoadError) : String :=
  (match e with
    | .file path _ => "failed to read mod manifest " ++ path
    | .toml path => "failed to parse mod manifest" ++ place path
    | .invalid path _ => "invalid mod manifest" ++ place path) ++ ": " ++ ": ".intercalate e.causes

end LoadError

/-- A manifest without issues. -/
def validated (m : Manifest) : Except LoadError Manifest :=
  if m.issues.isEmpty then .ok m else .error (.invalid none m.issues)

/-- The manifest that a TOML document holds. -/
def ofToml (text : String) : Except LoadError Manifest :=
  match (Toml.read? text).bind fun document => ofJson? document.toJson with
  | some m => m.validated
  | none => .error (.toml none)

/-- The manifest in the file at a path. -/
def load {m : Type → Type} [Monad m] [FileAccess m] (path : String) : m (Except LoadError Manifest) := do
  match ← FileAccess.readText path with
  | .ok text => return (ofToml text).mapError (LoadError.withPath path)
  | .error cause => return .error (.file path cause)

end Manifest
end Graft
