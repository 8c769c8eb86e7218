import Graft.Syntax.Tree
import Std.Data.HashMap
/-!
# Stores of nodes

A store holds nodes in numbered slots, and nodes name their children by number, so an edit overwrites one
slot and leaves all others as they are. A node that an edit detaches stays in its slot; it is no longer
reached from the root, but a cursor may still stand on it. `Store.tree?` is the finite tree below a slot.

Parent links are kept beside the store, in a `Parents` map that a search fills in as it goes.
-/

namespace Graft

/-- The number of a slot. -/
structure NodeId where
  index : Nat
  deriving DecidableEq, Hashable, Inhabited

structure Store where
  nodes : Array (Node NodeId)
  root : NodeId
  deriving Inhabited

namespace Store

def size (s : Store) : Nat := s.nodes.size

/-- The node in a slot; a number out of range names an empty statement. -/
def get (s : Store) (id : NodeId) : Node NodeId := s.nodes.getD id.index .emptyStatement

/-- Overwrites a slot. -/
def set (s : Store) (id : NodeId) (n : Node NodeId) : Store := { s with nodes := s.nodes.setIfInBounds id.index n }

/-- Puts a node in a fresh slot. -/
def alloc (s : Store) (n : Node NodeId) : NodeId × Store := (⟨s.nodes.size⟩, { s with nodes := s.nodes.push n })

def children (s : Store) (id : NodeId) : List NodeId := (s.get id).children

def typeName (s : Store) (id : NodeId) : String := (s.get id).typeName

/-! ## Trees in and out -/

/-- Puts the children of a node in the store, then the node itself. -/
def insertNode (n : Node (StateM Store NodeId)) : StateM Store NodeId := do
  let n ← n.traverse id
  modifyGet fun s => s.alloc n

/-- Puts a tree in fresh slots. -/
def insert (s : Store) (t : Tree) : NodeId × Store := t.fold insertNode s

def insertAll (s : Store) (ts : List Tree) : List NodeId × Store :=
  ts.foldr (fun t (ids, s) => let (id, s) := s.insert t; (id :: ids, s)) ([], s)

def empty : Store := { nodes := #[], root := ⟨0⟩ }

/-- A store that holds one tree, with its top as root. -/
def ofTree (t : Tree) : Store := let (id, s) := empty.insert t; { s with root := id }

/-- The tree below a slot, if no path from it is longer than the bound. -/
def treeWithin (s : Store) : Nat → NodeId → Option Tree
  | 0, _ => none
  | depth + 1, id => do return .mk (← (s.get id).traverse (treeWithin s depth))

/-- The tree below a slot. No path without repetition is longer than the number of slots. -/
def tree? (s : Store) (id : NodeId) : Option Tree := s.treeWithin (s.size + 1) id

def tree (s : Store) (id : NodeId) : Tree := (s.tree? id).getD default

end Store

/-- Child-to-parent links. -/
structure Parents where
  links : Std.HashMap NodeId NodeId

namespace Parents

def empty : Parents := ⟨∅⟩

def link (p : Parents) (child parent : NodeId) : Parents := ⟨p.links.insert child parent⟩

def get? (p : Parents) (child : NodeId) : Option NodeId := p.links[child]?

/-- Links every one of these children. -/
def linkAll (p : Parents) (children : List NodeId) (parent : NodeId) : Parents :=
  children.foldl (fun p child => p.link child parent) p

/-- Links the direct children of a node. -/
def linkChildren (p : Parents) (s : Store) (parent : NodeId) : Parents := p.linkAll (s.children parent) parent

end Parents
end Graft
