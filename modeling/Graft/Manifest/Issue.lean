import Graft.Manifest.Basic
import Graft.Version.Requirement
/-!
# What is wrong with a manifest

A manifest that can be read may still make no sense. `Manifest.issues` lists all that is wrong with one, in the order
of the manifest; a manifest without issues is valid.
-/

namespace Graft
namespace Manifest

/-- What is wrong with a patch. -/
inductive Fault where
  | missing (field : String)
  | invalidPattern
  /-- A group number that runs on into a name. -/
  | ambiguousReference (digits letters : String)
  | bothCriteria
  | noCriterion
  | unknownType (written : String)
  | patternNotATable
  | changeValue
  deriving DecidableEq, Inhabited

/-- What is wrong with a manifest. -/
inductive Issue where
  | noPatches
  | versionRange (range : String)
  | missingId
  | duplicateId (id : String)
  | patch (id : String) (fault : Fault)
  deriving DecidableEq, Inhabited

/-! ## Wording -/

namespace Fault

def message : Fault → String
  | .missing field => "missing required field '" ++ field ++ "'"
  | .invalidPattern => "invalid regex"
  | .ambiguousReference digits letters =>
    "replacement '$" ++ digits ++ letters ++ "' names a group '" ++ digits ++ letters ++ "'; write '$\x7b" ++ digits
      ++ "\x7d" ++ letters ++ "' for group " ++ digits ++ " followed by text"
  | .bothCriteria => "step has both 'find' and 'raw'"
  | .noCriterion => "step needs 'find' or 'raw'"
  | .unknownType written => "raw pattern has unknown node type " ++ written
  | .patternNotATable => "raw pattern must be a table"
  | .changeValue => "change needs exactly one of 'value' or 'code'"

def isMissing : Fault → Bool
  | .missing _ => true
  | _ => false

end Fault

def Issue.message : Issue → String
  | .noPatches => "mod manifest contains no patches"
  | .versionRange range => "invalid mod configuration: invalid version_range '" ++ range ++ "'"
  | .missingId => "patch missing required field 'id'"
  | .duplicateId id => "patch id '" ++ id ++ "' is used more than once"
  | .patch id fault =>
    "patch '" ++ id ++ "' " ++ (if fault.isMissing then "" else "has invalid configuration: ") ++ fault.message

/-! ## Checks -/

def isBlank (text : String) : Bool := (Unicode.trim text).isEmpty

/-- A single fault that is there or not. -/
def faultIf (b : Bool) (fault : Fault) : List Fault := if b then [fault] else []

/-- What is wrong with a raw pattern. -/
def patternFaults : Json → List Fault
  | .object members =>
    match members.lookup "type" with
    | none => []
    | some (.string name) => faultIf (!Node.typeNames.contains name) (.unknownType (Json.quote name))
    | some j => [.unknownType j.compact]
  | _ => [.patternNotATable]

/-- What is wrong with that which a step searches for. -/
def criterionFaults : Option MatchSpec → Option Json → List Fault
  | some _, some _ => [.bothCriteria]
  | none, none => [.noCriterion]
  | none, some pattern => patternFaults pattern
  | some _, none => []

mutual
def stepFaults : Step → List Fault
  | .mk find raw _ actions => criterionFaults find raw ++ actionFaults actions

def actionFaults : List Action → List Fault
  | [] => []
  | action :: rest => faultsOfAction action ++ actionFaults rest

def faultsOfAction : Action → List Fault
  | .insert _ code => faultIf (isBlank code) (.missing "actions.code")
  | .wrap code => faultIf (isBlank code) (.missing "actions.code")
  | .change _ value code => faultIf (value.isSome == code.isSome) .changeValue
  | .gotoChild field _ => faultIf (isBlank field) (.missing "actions.field")
  | .gotoParent => []
  | .find step => stepFaults step
end

def patternTextFaults (pattern : String) : List Fault :=
  if pattern.isEmpty then [.missing "operation.pattern"]
  else faultIf (Regex.compile? pattern).isNone .invalidPattern

def replacementFaults (replacement : String) : List Fault :=
  match Regex.ambiguousReference? replacement.toList with
  | some (digits, letters) => [.ambiguousReference (String.ofList digits) (String.ofList letters)]
  | none => []

def Operation.faults : Operation → List Fault
  | .regex pattern replacement _ => patternTextFaults pattern ++ replacementFaults replacement
  | .replace old _ _ => faultIf old.isEmpty (.missing "operation.from")
  | .ast steps => faultIf steps.isEmpty (.missing "operation.steps") ++ steps.flatMap stepFaults

def Definition.faults (d : Definition) : List Fault :=
  faultIf (d.file.any isBlank) (.missing "file") ++ d.operation.faults

/-- What is wrong with the id of a patch, given the ids before it. -/
def idIssues (earlier : List String) (id : String) : List Issue :=
  if isBlank id then [.missingId] else if earlier.contains id then [.duplicateId id] else []

/-- What is wrong with patches, given the ids before them. -/
def definitionIssues (earlier : List String) : List Definition → List Issue
  | [] => []
  | d :: rest => idIssues earlier d.id ++ d.faults.map (.patch d.id) ++ definitionIssues (d.id :: earlier) rest

/-- A range that is not blank has to be a requirement. -/
def rangeIssues (range : Option String) : List Issue :=
  match range with
  | some r =>
    if !isBlank r && (Version.Requirement.read? (Unicode.trim r)).isNone then [.versionRange r] else []
  | none => []

/-- All that is wrong with a manifest. -/
def issues (m : Manifest) : List Issue :=
  (if m.patches.isEmpty then [.noPatches] else []) ++ rangeIssues m.versionRange ++ definitionIssues [] m.patches

end Manifest
end Graft
