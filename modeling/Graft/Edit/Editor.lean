import Graft.Edit.Error
import Graft.Print.Printer
import Graft.Query.Match
import Graft.Text.Similarity
/-!
# The editor

A cursor on a node of a store. Moves follow fields and recorded parents; `insert`, `wrap` and `change` edit
in place. An operation that fails leaves cursor, links and every slot that was there as they were: all that
can fail comes before the first write.
-/

namespace Graft

structure Editor where
  store : Store
  parents : Parents
  current : NodeId

inductive InsertPosition where
  | start
  | «end»
  | before
  | after
  deriving DecidableEq, Inhabited

namespace InsertPosition

def word : InsertPosition → String
  | .start => "start"
  | .end => "end"
  | .before => "before"
  | .after => "after"

def ofWord? (w : String) : Option InsertPosition := [start, «end», before, after].find? fun p => p.word = w

end InsertPosition

inductive ChangeMethod where
  | update
  | set
  deriving DecidableEq, Inhabited

namespace ChangeMethod

def word : ChangeMethod → String
  | .update => "update"
  | .set => "set"

def ofWord? (w : String) : Option ChangeMethod := [update, set].find? fun m => m.word = w

end ChangeMethod

/-- A new value: JSON data or the source of an expression. -/
inductive ChangeValue where
  | data (value : Json)
  | code (source : String)

def ChangeValue.source : ChangeValue → String
  | .data j => Source.ofJson j
  | .code s => s

namespace Editor

abbrev Result := Except EditError Editor

/-- An editor on the root of a tree, without any recorded parent. -/
def ofTree (t : Tree) : Editor :=
  let store := Store.ofTree t
  { store := store, parents := .empty, current := store.root }

def node (e : Editor) : Node NodeId := e.store.get e.current

def typeName (e : Editor) : String := e.node.typeName

def parent? (e : Editor) : Option NodeId := e.parents.get? e.current

def obstacle {α : Type} (e : Editor) (operation : Operation) (o : Obstacle) : Except EditError α :=
  .error (.precondition operation e.typeName o)

/-! ## Searching -/

/-- Puts the cursor elsewhere. -/
def moveTo (e : Editor) (id : NodeId) : Editor := { e with current := id }

def findAll (e : Editor) (spec : MatchSpec) : List NodeId × Editor :=
  let (found, parents) := e.store.findAll e.parents e.current spec
  (found, { e with parents := parents })

def findPattern (e : Editor) (pattern : Json) : List NodeId × Editor :=
  let (found, parents) := e.store.findPattern e.parents e.current pattern
  (found, { e with parents := parents })

/-! ## Moving -/

/-- The similarity from which on a field name is suggested. -/
def suggestionThreshold : Similarity.Fraction := ⟨8, 10⟩

def unknownField (e : Editor) (field : String) : Obstacle :=
  let names := e.node.fields.map Prod.fst
  .unknownField field names (Similarity.nearest? suggestionThreshold field names)

/-- Moves to a child and links it. -/
def enter (e : Editor) (child : NodeId) : Editor :=
  { e with parents := e.parents.link child e.current, current := child }

/-- Moves to the node that a field holds. -/
def gotoChild (e : Editor) (field : String) : Result :=
  match e.node.field? field with
  | some (.node child) => .ok (e.enter child)
  | some (.list _) => e.obstacle .gotoChild (.listField field)
  | some (.holes _) => e.obstacle .gotoChild (.listField field)
  | some .absent => e.obstacle .gotoChild (.emptyField field)
  | some _ => e.obstacle .gotoChild (.valueField field)
  | none => e.obstacle .gotoChild (e.unknownField field)

/-- Moves to an element of the list that a field holds. -/
def gotoElement (e : Editor) (field : String) (index : Nat) : Result :=
  let element (child : Option NodeId) : Result :=
    match child with
    | some child => .ok (e.enter child)
    | none => e.obstacle .gotoChild (.noElement field index)
  match e.node.field? field with
  | some (.list ids) => element ids[index]?
  | some (.holes slots) => element (slots[index]?.bind id)
  | some _ => e.obstacle .gotoChild (.notAList field)
  | none => e.obstacle .gotoChild (e.unknownField field)

/-- Moves to the recorded parent. -/
def gotoParent (e : Editor) : Result :=
  match e.parent? with
  | some parent => .ok (e.moveTo parent)
  | none => e.obstacle .gotoParent .noParent

/-! ## Fragments -/

/-- Puts the statements of a text in fresh slots. A text that is a single block gives the statements in it. -/
def insertStatements (e : Editor) (code : String) : Except EditError (List NodeId × Store) :=
  match Source.readStatements code with
  | .error cause => .error (.fragment cause)
  | .ok [.mk (.blockStatement body)] => .ok (e.store.insertAll body)
  | .ok body => .ok (e.store.insertAll body)

/-- Puts the expression of a text in fresh slots. -/
def insertExpression (e : Editor) (code : String) : Except EditError (NodeId × Store) :=
  match Source.readExpression code with
  | .error cause => .error (.fragment cause)
  | .ok t => .ok (e.store.insert t)

/-! ## Inserting statements -/

/-- The statement list that a node offers for its own start and end. -/
def ownList (e : Editor) : Except EditError NodeId :=
  match e.node with
  | .program _ => .ok e.current
  | .blockStatement _ => .ok e.current
  | n =>
    match n.func? with
    | some f => if (e.store.get f.body).isBlock then .ok f.body else e.obstacle .insert .expressionBody
    | none => e.obstacle .insert .noStatements

/-- The owner of the statement list that holds the node, and the node's place in it. -/
def placeInParent (e : Editor) : Except EditError (NodeId × Nat) :=
  match e.parent? with
  | none => e.obstacle .insert .unrecordedParent
  | some parent =>
    match (e.store.get parent).statements? with
    | none => e.obstacle .insert (.parentWithoutStatements (e.store.typeName parent))
    | some statements =>
      match statements.idxOf? e.current with
      | some i => .ok (parent, i)
      | none => e.obstacle .insert .notInParent

/-- The owner of a statement list and the place in it where a position lies. -/
def insertionPoint (e : Editor) (position : InsertPosition) : Except EditError (NodeId × Nat) :=
  match position with
  | .start => e.ownList.map (·, 0)
  | .end => e.ownList.map fun owner => (owner, (((e.store.get owner).statements?).map List.length).getD 0)
  | .before => e.placeInParent
  | .after => e.placeInParent.map fun (owner, i) => (owner, i + 1)

/-- Puts statements into the list of `owner`, from place `index` on. -/
def splice (e : Editor) (owner : NodeId) (index : Nat) (statements : List NodeId) : Editor :=
  let n := e.store.get owner
  let list := n.statements?.getD []
  { e with
    store := e.store.set owner (n.withStatements (list.take index ++ statements ++ list.drop index))
    parents := e.parents.linkAll statements owner }

/-- Inserts the statements of a text. -/
def insert (e : Editor) (position : InsertPosition) (code : String) : Result := do
  let (owner, index) ← e.insertionPoint position
  let (statements, store) ← e.insertStatements code
  return { e with store := store }.splice owner index statements

/-! ## Wrapping functions -/

/-- A block with these statements, in a fresh slot. -/
def allocBlock (s : Store) (statements : List NodeId) : NodeId × Store := s.alloc (.blockStatement statements)

/-- A statement list for a function body: that of a block, or a `return` of an expression. -/
def bodyStatements (s : Store) (body : NodeId) : List NodeId × Store :=
  match s.get body with
  | .blockStatement statements => (statements, s)
  | _ => let (ret, s) := s.alloc (.returnStatement (some body)); ([ret], s)

/-- The body itself if it is a block, otherwise a block that returns it. -/
def blockBody (s : Store) (body : NodeId) : NodeId × Store :=
  if (s.get body).isBlock then (body, s)
  else let (statements, s) := bodyStatements s body; allocBlock s statements

/-- Moves the body of `target` into a function declaration named `name` at the start of the wrapper's
body, and gives `target` that body and the wrapper's further parameters. -/
def wrapFunction (e : Editor) (target : NodeId) (original wrapper : Func NodeId) (name : String) : Editor :=
  let (innerBody, s) := blockBody e.store original.body
  let (innerId, s) := s.alloc (.identifier name)
  let (inner, s) := s.alloc (.functionDeclaration { original with id := some innerId, body := innerBody })
  let (statements, s) := bodyStatements s wrapper.body
  let (body, s) := allocBlock s (inner :: statements)
  let changed := { original with
    params := wrapper.params.tail, body := body, isAsync := original.isAsync || wrapper.isAsync }
  let s := s.set target ((s.get target).withFunc changed)
  { e with
    store := s
    parents := ((e.parents.linkChildren s target).linkChildren s body).linkChildren s inner }

/-- Wraps the function at the cursor with an arrow function `(original, ...) => …`. -/
def wrap (e : Editor) (code : String) : Result :=
  match e.node.func? with
  | none => e.obstacle .wrap .notAFunction
  | some original => do
    let (id, store) ← e.insertExpression code
    match store.get id with
    | .arrowFunctionExpression wrapper =>
      if wrapper.params.length ≠ original.params.length + 1 then
        e.obstacle .wrap (.parameterCount wrapper.params.length (original.params.length + 1))
      else
        match wrapper.params.head?.bind store.identifierName? with
        | some name => .ok ({ e with store := store }.wrapFunction e.current original wrapper name)
        | none => e.obstacle .wrap .firstParameter
    | other => e.obstacle .wrap (.notAnArrow other.typeName)

/-! ## Changing values -/

/-- Gives a property a new value; it becomes a plain `key: value`. -/
def setPropertyValue (e : Editor) (property value : NodeId) : Editor :=
  match e.store.get property with
  | .property key _ _ computed _ _ =>
    { e with
      store := e.store.set property (.property key value .init computed false false)
      parents := e.parents.link value property }
  | _ => { e with parents := e.parents.link value property }

/-- Adds a member at the end of an object literal. -/
def appendMember (e : Editor) (object member : NodeId) : Editor :=
  match e.store.get object with
  | .objectExpression properties =>
    { e with
      store := e.store.set object (.objectExpression (properties ++ [member]))
      parents := e.parents.link member object }
  | _ => { e with parents := e.parents.link member object }

/-- The property of `target` that a member would replace, with its value and the new one. -/
def counterpart? (s : Store) (target member : NodeId) : Option (NodeId × NodeId × NodeId) := do
  let value ← s.propertyValue? member
  let name ← s.memberKey? member
  let existing ← s.findProperty? target name
  return (existing, ← s.propertyValue? existing, value)

/-- Merges members into an object literal: values of keys that it has are replaced, or merged where both
are object literals, and other members are added at the end. -/
def mergeMembers (e : Editor) (target : NodeId) : Nat → List NodeId → Editor
  | 0, _ => e
  | _ + 1, [] => e
  | depth + 1, member :: rest =>
    let merged := match counterpart? e.store target member with
      | some (existing, old, new) =>
        if e.store.isObject old && e.store.isObject new then
          mergeMembers e old depth (e.store.members new)
        else e.setPropertyValue existing new
      | none => e.appendMember target member
    mergeMembers merged target depth rest

/-- Merges one object literal into another. -/
def mergeObject (e : Editor) (target source : NodeId) : Editor :=
  mergeMembers e target (e.store.size + 1) (e.store.members source)

/-- The object literal that an update at the cursor changes. -/
def updateTarget? (e : Editor) : Option NodeId :=
  match e.node with
  | .objectExpression _ => some e.current
  | .property _ value _ _ _ _ => if e.store.isObject value then some value else none
  | _ => none

def update (e : Editor) (value : ChangeValue) : Result :=
  match e.updateTarget? with
  | none => e.obstacle .update .needsObject
  | some target => do
    let (source, store) ← e.insertExpression value.source
    if store.isObject source then return { e with store := store }.mergeObject target source
    else e.obstacle .update (.updateValue value.source)

/-- Overwrites the node at the cursor, and links its new children. -/
def overwrite (e : Editor) (n : Node NodeId) : Editor :=
  let store := e.store.set e.current n
  { e with store := store, parents := e.parents.linkChildren store e.current }

def set (e : Editor) (value : ChangeValue) : Result :=
  match e.node with
  | .variableDeclarator id _ => do
    let (new, store) ← e.insertExpression value.source
    return { e with
      store := store.set e.current (.variableDeclarator id (some new))
      parents := e.parents.link new e.current }
  | .property .. => do
    let (new, store) ← e.insertExpression value.source
    return { e with store := store }.setPropertyValue e.current new
  | .objectExpression _ => do
    let (new, store) ← e.insertExpression value.source
    if store.isObject new then return { e with store := store }.overwrite (store.get new)
    else e.obstacle .set (.setValue value.source)
  | .literal .. => do
    let (new, store) ← e.insertExpression value.source
    return { e with store := store }.overwrite (store.get new)
  | _ => e.obstacle .set .notSettable

/-- Changes the node at the cursor. -/
def change (e : Editor) (method : ChangeMethod) (value : ChangeValue) : Result :=
  match method with
  | .update => e.update value
  | .set => e.set value

/-! ## Texts -/

def tree (e : Editor) : Tree := e.store.tree e.current

/-- The source of the whole tree. -/
def print (e : Editor) : String := (e.store.tree e.store.root).print

end Editor
end Graft
