import Graft.Proofs.Edit.Contents
import Graft.Query.Match
/-!
# Keys and values of trees

The look-ups in a store that a search and a merge make, on trees instead: the key of a member, the value behind a key, and whether an
expression has a JSON value. In a forest they agree with the ones in the store (`Store.hasValue_tree`).
-/

namespace Graft

/-- The constant that an operator makes of its argument. -/
def Node.unaryConstant? {α : Type} (operator : String) (argument : Node α) : Option LiteralValue :=
  match operator, argument with
  | "-", .literal (.number x) _ => some (.number x.neg)
  | "+", .literal (.number x) _ => some (.number x)
  | "!", .literal (.number x) _ => some (.boolean (x.magnitude = 0))
  | "!", .literal (.boolean b) _ => some (.boolean !b)
  | "void", .literal (.number x) _ => if x.magnitude = 0 then some .null else none
  | _, _ => none

theorem Node.unaryConstant?_map {α β : Type} (operator : String) (f : α → β) (argument : Node α) :
    unaryConstant? operator (argument.map f) = unaryConstant? operator argument := by
  unfold unaryConstant?
  cases argument with
  | literal value raw => cases value <;> simp [map, traverse] <;> split <;> simp_all
  | _ => simp [map, traverse]

namespace Tree

/-! ## Look-ups -/

def isObject (t : Tree) : Bool := t.node.isObjectExpression

def keyName? (key : Tree) (computed : Bool) : Option String :=
  match key.node with
  | .identifier name => if computed then none else some name
  | .literal (.string text) _ => some text
  | .literal (.number x) _ => some x.keyText
  | _ => none

/-- The key of a member of an object or a class. -/
def memberKey? (member : Tree) : Option String :=
  match member.node with
  | .property key _ _ computed _ _ => key.keyName? computed
  | .methodDefinition key _ _ computed _ => key.keyName? computed
  | .propertyDefinition key _ computed _ => key.keyName? computed
  | _ => none

/-- The members of an object literal or pattern. -/
def members (object : Tree) : List Tree :=
  match object.node with
  | .objectExpression properties => properties
  | .objectPattern properties => properties
  | _ => []

def propertyValue? (property : Tree) : Option Tree :=
  match property.node with
  | .property _ value _ _ _ _ => some value
  | _ => none

/-- The value of the first member with a key. -/
def valueOf? (members : List Tree) (name : String) : Option Tree :=
  (members.find? fun m => m.memberKey? = some name).bind propertyValue?

/-- The constant that an expression stands for. -/
def constant? (t : Tree) : Option LiteralValue :=
  match t.node with
  | .literal value _ => some value
  | .unaryExpression operator argument => argument.node.unaryConstant? operator
  | _ => none

mutual
/-- Does an expression have a JSON value? Objects may have more members than the value. -/
def hasValue (t : Tree) : Json → Bool
  | .object members => t.isObject && hasValues t.members members
  | expected =>
    match t.constant? with
    | some actual => actual.eqJson expected
    | none => false

def hasValues (members : List Tree) : List (String × Json) → Bool
  | [] => true
  | (key, expected) :: rest =>
    (match valueOf? members key with
      | some value => hasValue value expected
      | none => false)
      && hasValues members rest
end

theorem hasValues_iff {members : List Tree} {expected : List (String × Json)} : hasValues members expected = true ↔
    ∀ m ∈ expected, ∃ value, valueOf? members m.1 = some value ∧ value.hasValue m.2 = true := by
  induction expected with
  | nil => simp [hasValues]
  | cons m rest ih =>
    obtain ⟨key, j⟩ := m
    rw [hasValues, Bool.and_eq_true, ih, List.forall_mem_cons]
    cases valueOf? members key <;> simp

/-! ## Sizes -/

theorem count_pos (t : Tree) : 0 < t.count := by
  obtain ⟨n⟩ := t
  rw [count_mk]
  omega

theorem sum_members_lt (t : Tree) : (t.members.map count).sum < t.count := by
  obtain ⟨n⟩ := t
  rw [count_mk, members]
  cases n with
  | objectExpression properties => simp [node]
  | objectPattern properties => simp [node, Node.children, Node.fields]
  | _ => simp [node]

theorem count_value_lt {property value : Tree} (h : property.propertyValue? = some value) : value.count < property.count := by
  obtain ⟨n⟩ := property
  cases n with
  | property key old kind computed shorthand method =>
    obtain rfl : old = value := Option.some.inj h
    rw [count_mk, Node.children_property]
    simp only [List.map_cons, List.sum_cons, List.map_nil, List.sum_nil]
    omega
  | _ => cases h

end Tree

/-! ## Trees of a forest -/

namespace Store

variable {s : Store} {K : Set NodeId} {x : NodeId}

section
variable (hF : Forest s.children K) (hin : ∀ x ∈ K, x.index < s.size)
include hF hin

theorem node_tree (hx : x ∈ K) : (s.tree x).node = (s.get x).map s.tree := by
  rw [tree_eq hF hin hx]
  rfl

theorem isObject_tree (hx : x ∈ K) : (s.tree x).isObject = s.isObject x := by
  rw [Tree.isObject, node_tree hF hin hx, isObject]
  cases s.get x <;> rfl

theorem keyName?_tree (hx : x ∈ K) (computed : Bool) : (s.tree x).keyName? computed = s.keyName? x computed := by
  rw [Tree.keyName?, node_tree hF hin hx, keyName?]
  cases s.get x with
  | literal value raw => cases value <;> rfl
  | _ => rfl

theorem memberKey?_tree (hx : x ∈ K) : (s.tree x).memberKey? = s.memberKey? x := by
  have key {c : NodeId} (hc : c ∈ (s.get x).children) (computed : Bool) := keyName?_tree hF hin (hF.closed x hx c hc) computed
  rw [Tree.memberKey?, node_tree hF hin hx, memberKey?]
  cases hn : s.get x with
  | property k v kind computed shorthand method => exact key (by simp [hn]) computed
  | methodDefinition k v kind computed isStatic => exact key (by simp [hn, Node.children, Node.fields]) computed
  | propertyDefinition k v computed isStatic => exact key (by simp [hn, Node.children, Node.fields]) computed
  | _ => rfl

theorem propertyValue?_tree (hx : x ∈ K) : (s.tree x).propertyValue? = (s.propertyValue? x).map s.tree := by
  rw [Tree.propertyValue?, node_tree hF hin hx, propertyValue?]
  cases s.get x <;> rfl

theorem members_tree (hx : x ∈ K) : (s.tree x).members = (s.members x).map s.tree := by
  have list (as : List NodeId) := Node.traverseList_pure (fun a => (rfl : (pure (s.tree a) : Id Tree) = _)) as
  rw [Tree.members, node_tree hF hin hx, members]
  cases s.get x with
  | objectExpression properties => exact list properties
  | objectPattern properties => exact list properties
  | _ => rfl

omit hin in
theorem members_mem (hx : x ∈ K) {m : NodeId} (hm : m ∈ s.members x) : m ∈ K := by
  refine hF.closed x hx m ?_
  unfold members at hm
  unfold children
  cases hn : s.get x with
  | objectExpression properties => simpa [hn] using hm
  | objectPattern properties => simpa [hn, Node.children, Node.fields] using hm
  | _ => simp [hn] at hm

theorem find?_tree {members : List NodeId} (h : ∀ m ∈ members, m ∈ K) (name : String) :
    (members.map s.tree).find? (fun m => m.memberKey? = some name) =
      (members.find? fun m => s.memberKey? m = some name).map s.tree := by
  induction members with
  | nil => rfl
  | cons m rest ih =>
    rw [List.map_cons, List.find?_cons, List.find?_cons, memberKey?_tree hF hin (h m List.mem_cons_self),
      ih fun m' hm' => h m' (List.mem_cons_of_mem m hm')]
    cases decide (s.memberKey? m = some name) <;> rfl

theorem valueOf?_tree (hx : x ∈ K) (name : String) :
    Tree.valueOf? (s.tree x).members name = ((s.findProperty? x name).bind s.propertyValue?).map s.tree := by
  rw [Tree.valueOf?, members_tree hF hin hx, find?_tree hF hin fun m hm => members_mem hF hx hm, findProperty?]
  cases hfound : (s.members x).find? fun m => decide (s.memberKey? m = some name) with
  | none => rfl
  | some m => exact propertyValue?_tree hF hin (members_mem hF hx (List.mem_of_find?_eq_some hfound))

omit hF hin in
theorem constant?_unary {operator : String} {argument : NodeId} (hn : s.get x = .unaryExpression operator argument) :
    s.constant? x = (s.get argument).unaryConstant? operator := by
  unfold constant? Node.unaryConstant?
  rw [hn]
  dsimp only
  split <;> simp_all

theorem constant?_tree (hx : x ∈ K) : (s.tree x).constant? = s.constant? x := by
  cases hn : s.get x with
  | unaryExpression operator argument =>
    have hargument : argument ∈ K := hF.closed x hx argument (by simp [children, hn, Node.children, Node.fields])
    rw [constant?_unary hn, ← Node.unaryConstant?_map operator s.tree, ← node_tree hF hin hargument, Tree.constant?,
      node_tree hF hin hx, hn]
    rfl
  | _ =>
    rw [Tree.constant?, node_tree hF hin hx, constant?, hn]
    rfl

omit hin in
theorem value_mem (hx : x ∈ K) {name : String} {value : NodeId}
    (h : (s.findProperty? x name).bind s.propertyValue? = some value) : value ∈ K := by
  obtain ⟨property, hproperty, hvalue⟩ := Option.bind_eq_some_iff.1 h
  refine hF.closed property (members_mem hF hx (List.mem_of_find?_eq_some hproperty)) value ?_
  unfold propertyValue? at hvalue
  unfold children
  split at hvalue
  next hn =>
    cases hvalue
    simp [hn]
  next => cases hvalue

mutual
/-- A node has a value where its tree has it. -/
theorem hasValue_tree {x : NodeId} (hx : x ∈ K) : (j : Json) → (s.tree x).hasValue j = s.hasValue x j
  | .object members => by
    rw [Tree.hasValue, hasValue, isObject_tree hF hin hx, hasValues_tree hx members]
  | .null | .bool _ | .int _ | .double _ | .string _ | .array _ => by
    rw [Tree.hasValue, hasValue, constant?_tree hF hin hx]
    all_goals first | rfl | nofun

theorem hasValues_tree {x : NodeId} (hx : x ∈ K) :
    (members : List (String × Json)) → Tree.hasValues (s.tree x).members members = s.hasValues x members
  | [] => rfl
  | (key, expected) :: rest => by
    rw [Tree.hasValues, hasValues, valueOf?_tree hF hin hx, hasValues_tree hx rest]
    cases hvalue : (s.findProperty? x key).bind s.propertyValue? with
    | none => rfl
    | some value =>
      change ((s.tree value).hasValue expected && _) = _
      rw [hasValue_tree (value_mem hF hx hvalue) expected]
end

end
end Store
end Graft
