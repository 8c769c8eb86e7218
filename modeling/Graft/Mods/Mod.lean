import Graft.Files.Path
import Graft.Manifest.Issue
/-!
# Mods

A mod is a named list of patches, each for one bundle file or for all of them, and perhaps a range of the versions
that it is made for.
-/

namespace Graft

/-- A patch and the name of the file that it is for; without a name it is for every bundle. -/
structure TargetedPatch where
  patch : Patch
  file : Option String

def TargetedPatch.isFor (p : TargetedPatch) (fileName : Option String) : Bool :=
  match p.file, fileName with
  | none, _ => true
  | some target, some name => target = name
  | some _, none => false

structure Mod where
  name : String
  versionRange : Option String
  patches : List TargetedPatch

namespace Mod

/-- The mod that a manifest describes. One that gives no name takes another. -/
def ofManifest (otherName : String) (m : Manifest) : Mod :=
  let name := if Manifest.isBlank m.name then otherName else m.name
  { name := name
    versionRange := m.versionRange
    patches := m.patches.map fun d => { patch := d.toPatch name, file := d.file } }

/-- Is the mod made for a version? An unknown version suits every mod. -/
def appliesTo (m : Mod) (version : Option String) : Except Version.Error Bool :=
  match version with
  | some v => Version.meets v m.versionRange
  | none => .ok true

/-- The patches for a file. -/
def patchesFor (m : Mod) (fileName : Option String) : List Patch :=
  (m.patches.filter fun p => p.isFor fileName).map TargetedPatch.patch

end Mod
end Graft
