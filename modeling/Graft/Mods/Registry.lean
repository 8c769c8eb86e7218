import Graft.Manifest.Load
import Graft.Mods.Mod
/-!
# The registry of mods

Mods are kept in the order in which they come, no two of one name. A directory of mods has a directory for each,
with its manifest inside; they are taken in the order of their names, and the first that cannot be taken ends the
discovery, with those before it kept.
-/

namespace Graft

structure Registry where
  mods : List Mod

inductive RegistryError where
  | scan (directory : String) (cause : FileError)
  | manifest (cause : Manifest.LoadError)
  | duplicate (name : String)
  deriving DecidableEq, Inhabited

def RegistryError.message : RegistryError → String
  | .scan directory cause =>
    "failed to scan mods directory " ++ directory ++ ": IO error for operation on " ++ directory ++ ": " ++ cause.message
  | .manifest cause => cause.message
  | .duplicate name => "mod '" ++ name ++ "' is registered more than once"

/-- What lies behind the error, outermost first. -/
def RegistryError.causes : RegistryError → List String
  | .scan directory cause => ["IO error for operation on " ++ directory ++ ": " ++ cause.message, cause.message]
  | .manifest cause => cause.causes
  | .duplicate _ => []

namespace Registry

def empty : Registry := ⟨[]⟩

/-- Adds a mod at the end. -/
def register (r : Registry) (m : Mod) : Except RegistryError Registry :=
  if r.mods.any fun other => other.name = m.name then .error (.duplicate m.name) else .ok ⟨r.mods ++ [m]⟩

/-- The patches for a bundle, those of each mod after those of the mods before it. Mods that are not made for the
version are left out. -/
def patchesFor (r : Registry) (bundle : String) (version : Option String) : Except Version.Error (List Patch) :=
  go (Path.fileName? bundle) r.mods
where
  go (fileName : Option String) : List Mod → Except Version.Error (List Patch)
    | [] => .ok []
    | m :: rest => do
      let applies ← m.appliesTo version
      let more ← go fileName rest
      return if applies then m.patchesFor fileName ++ more else more

/-! ## Discovery -/

/-- The name of a manifest in the directory of its mod. -/
def manifestFile : String := "mod.toml"

section
variable {m : Type → Type} [Monad m] [FileAccess m]

/-- Takes the mods in these directories, and counts them. A directory without a manifest is passed over. -/
def discoverIn (directory : String) :
    List String → Nat → Registry → m (Except RegistryError Nat × Registry)
  | [], count, r => return (.ok count, r)
  | name :: rest, count, r => do
    let path := Path.join (Path.join directory name) manifestFile
    if ← FileAccess.isFile path then
      match ← Manifest.load path with
      | .error cause => return (.error (.manifest cause), r)
      | .ok manifest =>
        match r.register (Mod.ofManifest name manifest) with
        | .error cause => return (.error cause, r)
        | .ok r => discoverIn directory rest (count + 1) r
    else discoverIn directory rest count r

/-- Takes the mods of a directory, and counts them. A file in place of the directory holds none. -/
def discover (r : Registry) (directory : String) : m (Except RegistryError Nat × Registry) := do
  if ← FileAccess.isFile directory then return (.ok 0, r)
  else
    match ← FileAccess.subdirectories directory with
    | .error cause => return (.error (.scan directory cause), r)
    | .ok names => discoverIn directory (names.mergeSort fun a b => decide (a ≤ b)) 0 r

end
end Registry
end Graft
