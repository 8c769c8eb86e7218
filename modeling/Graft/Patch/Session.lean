import Graft.Patch.Basic
/-!
# Applying patches in order

A session holds the text that the patches so far have produced. A patch works on the session in place, and one that fails
leaves it as it was, so a session can go on after a failure. A pipeline stops at the first failure, which says which patch
failed and where it stands in the list.

A text counts as changed if its digest changed. Any digest will do; here a text is its own.
-/

namespace Graft

/-- The report on one applied patch. -/
structure Outcome where
  id : String
  kind : String
  /-- Number of matches, where they are counted. -/
  found : Option Nat
  changed : Bool
  deriving DecidableEq, Inhabited

/-- One line of a report. -/
def Outcome.line (o : Outcome) : String :=
  o.id ++ " (" ++ o.kind ++ ")" ++
    (match o.found with
      | some n => ": " ++ toString n ++ " match(es)"
      | none => "") ++
    if o.changed then "" else ", unchanged"

/-- The failure of a patch in a list. -/
structure Failure where
  id : String
  index : Nat
  kind : String
  cause : PatchError
  deriving DecidableEq, Inhabited

def Failure.message? (f : Failure) : Option String :=
  f.cause.message?.map fun cause =>
    "patch '" ++ f.id ++ "' (#" ++ toString f.index ++ ", " ++ f.kind ++ ") failed: " ++ cause

/-- The failure of this patch at a place of a list. -/
def Patch.failure (p : Patch) (index : Nat) (cause : PatchError) : Failure :=
  { id := p.id, index := index, kind := p.strategy.kind, cause := cause }

/-- The text so far, the patches that made it, and the reports on them. -/
structure Session where
  buffer : String
  consumed : List String
  outcomes : List Outcome
  deriving DecidableEq, Inhabited

namespace Session

def start (text : String) : Session := { buffer := text, consumed := [], outcomes := [] }

/-- A computation on a session that may fail. What it did to the session until then stays done. -/
abbrev Run (α : Type) := ExceptT Failure (StateM Session) α

/-- The session after a computation that succeeds. -/
def Run.after (x : Run Unit) (s : Session) : Except Failure Session :=
  match x.run s with
  | (.ok _, s) => .ok s
  | (.error f, _) => .error f

section
variable {δ : Type} [DecidableEq δ] (digest : String → δ)

/-- Applies the patch at place `index` of a list. -/
def patch (index : Nat) (p : Patch) : Run Unit := do
  let text := (← get).buffer
  match p.strategy.run text with
  | .error cause => throw (p.failure index cause)
  | .ok (result, found) =>
    let changed : Bool := digest result ≠ digest text
    modify fun s => { s with buffer := result }
    modify fun s => { s with consumed := s.consumed ++ [p.id] }
    modify fun s => { s with
      outcomes := s.outcomes ++ [{ id := p.id, kind := p.strategy.kind, found := found, changed := changed }] }

/-- Applies patches in order up to the first failure, the first of them at place `index`. -/
def patchAll (index : Nat) : List Patch → Run Unit
  | [] => pure ()
  | p :: rest => do
    patch digest index p
    patchAll (index + 1) rest

/-- Applies patches in order, each at a place of its own, and goes on after failures. Gives what each of them came to. -/
def patchEach : List (Nat × Patch) → StateM Session (List (Except Failure Unit))
  | [] => pure []
  | (index, p) :: rest => do
    let result ← (patch digest index p).run
    let results ← patchEach rest
    return result :: results

end

/-- The session after a patch. -/
def apply (s : Session) (index : Nat) (p : Patch) : Except Failure Session := (patch id index p).after s

end Session

/-- Applies patches to a text in order, up to the first failure, and tells changes by a digest. -/
def applyWith {δ : Type} [DecidableEq δ] (digest : String → δ) (text : String) (patches : List Patch) :
    Except Failure Session := (Session.patchAll digest 0 patches).after (.start text)

/-- Applies patches to a text in order, up to the first failure. -/
def applyPatches (text : String) (patches : List Patch) : Except Failure Session := applyWith id text patches

end Graft
