import Graft.Edit.Editor
/-!
# Operations in place

A script works on one editor from its first operation to its last. The code of an operation is read straight into the store
that is edited, so what an operation had read when it failed stays there, in slots that nothing holds.
-/

namespace Graft

/-- One operation at the cursor. -/
inductive Edit where
  | gotoChild (field : String)
  | gotoElement (field : String) (index : Nat)
  | gotoParent
  | insert (position : InsertPosition) (code : String)
  | wrap (code : String)
  | change (method : ChangeMethod) (value : ChangeValue)

/-- The editor after an operation that succeeds. -/
def Edit.result (op : Edit) (e : Editor) : Editor.Result :=
  match op with
  | .gotoChild field => e.gotoChild field
  | .gotoElement field index => e.gotoElement field index
  | .gotoParent => e.gotoParent
  | .insert position code => e.insert position code
  | .wrap code => e.wrap code
  | .change method value => e.change method value

namespace Editor

/-- A computation on an editor that may fail, and keeps the editor when it does. -/
abbrev Run (α : Type) := ExceptT EditError (StateM Editor) α

namespace Run

/-- One edit or move. -/
def ofResult (f : Editor → Result) : Run Unit := fun e =>
  match f e with
  | .ok e => (.ok (), e)
  | .error cause => (.error cause, e)

/-- A look at the editor, which stays as it is. -/
def inspect {α : Type} (f : Editor → Except EditError α) : Run α := fun e => (f e, e)

/-- Puts what a text holds into the store. -/
def place {α : Type} (f : Editor → Except EditError (α × Store)) : Run α := fun e =>
  match f e with
  | .ok (a, store) => (.ok a, { e with store := store })
  | .error cause => (.error cause, e)

/-- Goes on with another editor. -/
def put (e : Editor) : Run Unit := fun _ => (.ok (), e)

def fail {α : Type} (operation : Operation) (o : Obstacle) : Run α := inspect fun e => e.obstacle operation o

end Run

/-! ## Edits -/

/-- Inserts the statements of a text. The owner of the list is looked at again once they are read. -/
def insertInPlace (position : InsertPosition) (code : String) : Run Unit := do
  let (owner, index) ← Run.inspect fun e => e.insertionPoint position
  let statements ← Run.place fun e => e.insertStatements code
  let e ← get
  match (e.store.get owner).statements? with
  | some _ => Run.put (e.splice owner index statements)
  | none => throw (.precondition .insert (e.store.typeName owner) .noStatements)

/-- Wraps the function at the cursor with an arrow function. -/
def wrapInPlace (code : String) : Run Unit := do
  match (← get).node.func? with
  | none => Run.fail .wrap .notAFunction
  | some original =>
    let id ← Run.place fun e => e.insertExpression code
    let e ← get
    match e.store.get id with
    | .arrowFunctionExpression wrapper =>
      if wrapper.params.length ≠ original.params.length + 1 then
        Run.fail .wrap (.parameterCount wrapper.params.length (original.params.length + 1))
      else
        match wrapper.params.head?.bind e.store.identifierName? with
        | some name => Run.put (e.wrapFunction e.current original wrapper name)
        | none => Run.fail .wrap .firstParameter
    | other => Run.fail .wrap (.notAnArrow other.typeName)

/-- Merges a value into the object literal at the cursor. -/
def updateInPlace (value : ChangeValue) : Run Unit := do
  match (← get).updateTarget? with
  | none => Run.fail .update .needsObject
  | some target =>
    let source ← Run.place fun e => e.insertExpression value.source
    let e ← get
    if e.store.isObject source then Run.put (e.mergeObject target source)
    else Run.fail .update (.updateValue value.source)

/-- The nodes that a value can be set on. -/
inductive SetTarget where
  | declarator (id : NodeId)
  | property
  | object
  | literal

def setTarget? (e : Editor) : Option SetTarget :=
  match e.node with
  | .variableDeclarator id _ => some (.declarator id)
  | .property .. => some .property
  | .objectExpression _ => some .object
  | .literal .. => some .literal
  | _ => none

/-- Sets the node at the cursor to a value. -/
def setInPlace (value : ChangeValue) : Run Unit := do
  match (← get).setTarget? with
  | none => Run.fail .set .notSettable
  | some target =>
    let new ← Run.place fun e => e.insertExpression value.source
    let e ← get
    match target with
    | .declarator id =>
      Run.put { e with
        store := e.store.set e.current (.variableDeclarator id (some new))
        parents := e.parents.link new e.current }
    | .property => Run.put (e.setPropertyValue e.current new)
    | .object =>
      if e.store.isObject new then Run.put (e.overwrite (e.store.get new))
      else Run.fail .set (.setValue value.source)
    | .literal => Run.put (e.overwrite (e.store.get new))

/-- Runs one operation on the editor of a script. -/
def perform : Edit → Run Unit
  | .gotoChild field => Run.ofResult fun e => e.gotoChild field
  | .gotoElement field index => Run.ofResult fun e => e.gotoElement field index
  | .gotoParent => Run.ofResult gotoParent
  | .insert position code => insertInPlace position code
  | .wrap code => wrapInPlace code
  | .change .update value => updateInPlace value
  | .change .set value => setInPlace value

end Editor
end Graft
