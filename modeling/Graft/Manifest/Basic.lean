import Graft.Edit.Step
import Graft.Patch.Basic
/-!
# Manifests

A mod is described by a manifest: its name, the versions of the bundle it is made for, and its patches. In JSON a
manifest is a record of records. Members that no field asks for are passed over, except in steps.
-/

namespace Graft
namespace Manifest

/-- What a patch of a manifest does. -/
inductive Operation where
  | regex (pattern replacement : String) (expected : Option Nat)
  | replace (old new : String) (expected : Option Nat)
  | ast (steps : List Step)

/-- A patch as a manifest defines it. Without a file it is for every bundle. -/
structure Definition where
  id : String
  file : Option String
  operation : Operation

end Manifest

structure Manifest where
  name : String
  description : Option String
  versionRange : Option String
  patches : List Manifest.Definition

namespace Manifest

/-! ## Patches -/

def Operation.strategy : Operation → Strategy
  | .regex pattern replacement expected => .regex pattern replacement expected
  | .replace old new expected => .replace old new expected
  | .ast steps => .ast (Editor.runSteps steps)

/-- The patch, as part of the mod with a name. -/
def Definition.toPatch (modName : String) (d : Definition) : Patch :=
  Patch.inMod modName { id := d.id, strategy := d.operation.strategy }

/-! ## Reading from JSON -/

namespace Operation

/-- The fields of the operation with this `type`. -/
def fieldsOf (type : String) : Option (List String) :=
  match type with
  | "regex" => some ["pattern", "replacement", "expected_matches"]
  | "replace" => some ["from", "to", "expected_matches"]
  | "ast" => some ["steps"]
  | _ => none

def ofJson? (j : Json) : Option Operation := do
  let (type, members) ← Json.tagged? "type" fieldsOf j
  let text (field : String) : Option String := (members.lookup field).bind Json.string?
  let expected := Json.optional? Json.count? (members.lookup "expected_matches")
  match type with
  | "regex" => return .regex (← text "pattern") (← text "replacement") (← expected)
  | "replace" => return .replace (← text "from") (← text "to") (← expected)
  | "ast" => return .ast (← Step.listOfJson? (← members.lookup "steps"))
  | _ => none

end Operation

def Definition.ofJson? (j : Json) : Option Definition := do
  let members ← Json.record? ["id", "file", "operation"] j
  return {
    id := ← (← members.lookup "id").string?
    file := ← Json.optional? Json.string? (members.lookup "file")
    operation := ← Operation.ofJson? (← members.lookup "operation") }

def definitions? : Json → Option (List Definition)
  | .array items => items.mapM Definition.ofJson?
  | _ => none

def ofJson? (j : Json) : Option Manifest := do
  let members ← Json.record? ["meta", "patches"] j
  let about ← Json.withDefault [] (Json.record? ["name", "description", "version_range"]) (members.lookup "meta")
  return {
    name := ← Json.withDefault "" Json.string? (about.lookup "name")
    description := ← Json.optional? Json.string? (about.lookup "description")
    versionRange := ← Json.optional? Json.string? (about.lookup "version_range")
    patches := ← Json.withDefault [] definitions? (members.lookup "patches") }

end Manifest
end Graft
