import Graft.Proofs.Syntax.Children
import Graft.Print.Level
/-!
# Places in the syntax

A `Slot` is a kind of place, `Slot.allows` says which nodes the grammar lets stand there, and `Node.places` lists the
children of a node with their slots. A tree fits a slot (`Tree.Fits`) if every node in it is allowed where it stands.

The slots of most children depend on their parent alone. Members of object patterns and declarations in the head of a loop are
the exceptions: there the slot of the parent counts too.
-/

namespace Graft

inductive Slot where
  | program
  | statement
  | block
  | expression
  /-- An element of an array literal or an argument. -/
  | item
  /-- The left operand of an operator, a private name before `in`. -/
  | subject
  /-- A member of an object literal. -/
  | member
  /-- The function of a method or an accessor. -/
  | method
  /-- A name or a part of an object that gets a value, or a pattern of such. -/
  | pattern
  /-- A parameter or a value in a pattern, perhaps with a default. -/
  | element
  /-- A member of an object pattern. -/
  | patternMember
  /-- The left side of an assignment. -/
  | target
  /-- What gets the values that a loop goes over. -/
  | loopTarget
  /-- The first clause of a counting loop. -/
  | clause
  | declarator
  /-- A declarator without a value. -/
  | bareDeclarator
  | name
  /-- A name behind a dot. -/
  | memberName
  /-- A name of a member that is not computed. -/
  | key
  | handler
  | switchCase
  | classBody
  | classMember
  | arrowBody
  deriving DecidableEq

namespace Node
variable {α : Type}

/-- Expressions, opaque ones included. An arrow has no name. -/
def isExpression : Node α → Bool
  | .identifier _ | .literal .. | .thisExpression | .super | .arrayExpression _ | .objectExpression _
  | .functionExpression _ | .classExpression _ | .unaryExpression .. | .updateExpression .. | .binaryExpression ..
  | .logicalExpression .. | .assignmentExpression .. | .conditionalExpression .. | .callExpression .. | .newExpression ..
  | .memberExpression .. | .chainExpression _ | .sequenceExpression _ | .awaitExpression _ | .verbatim _ => true
  | .arrowFunctionExpression f => f.id.isNone
  | _ => false

def isVerbatim : Node α → Bool
  | .verbatim _ => true
  | _ => false

def isDestructuring : Node α → Bool
  | .objectPattern _ | .arrayPattern _ => true
  | _ => false

def isPattern : Node α → Bool
  | .identifier _ | .memberExpression .. | .chainExpression _ | .objectPattern _ | .arrayPattern _ => true
  | _ => false

def isDefaulted : Node α → Bool
  | .assignmentPattern .. => true
  | _ => false

/-- A property that is no method and no accessor. -/
def isPlainProperty : Node α → Bool
  | .property _ _ kind _ _ method => kind = .init && !method
  | _ => false

def isKey : Node α → Bool
  | .identifier _ | .privateIdentifier _ | .literal (.string _) _ | .literal (.number _) _ | .verbatim _ => true
  | _ => false

end Node

namespace Slot
variable {α : Type}

/-- May the node stand here? -/
def allows (σ : Slot) (n : Node α) : Bool :=
  match σ, n with
  | .program, .program _ => true
  | .program, _ => false
  | .statement, n => n.isStatement || n.isVerbatim
  | .block, n => n.isBlock
  | .expression, n => n.isExpression
  | .item, .spreadElement _ => true
  | .item, n => n.isExpression
  | .subject, .privateIdentifier _ => true
  | .subject, n => n.isExpression
  | .member, .property .. => true
  | .member, .spreadElement _ => true
  | .member, _ => false
  | .method, .functionExpression f => f.id.isNone
  | .method, _ => false
  | .pattern, n => n.isPattern
  | .element, .restElement _ => true
  | .element, n => n.isPattern || n.isDefaulted
  | .patternMember, .restElement _ => true
  | .patternMember, n => n.isPlainProperty || n.isVerbatim
  | .target, n => n.isExpression || n.isDestructuring
  | .loopTarget, .variableDeclaration .. => true
  | .loopTarget, n => n.isExpression || n.isDestructuring
  | .clause, .variableDeclaration .. => true
  | .clause, n => n.isExpression
  | .declarator, .variableDeclarator .. => true
  | .declarator, _ => false
  | .bareDeclarator, .variableDeclarator _ init => init.isNone
  | .bareDeclarator, _ => false
  | .name, .identifier _ => true
  | .name, _ => false
  | .memberName, .identifier _ => true
  | .memberName, .privateIdentifier _ => true
  | .memberName, _ => false
  | .key, n => n.isKey
  | .handler, .catchClause .. => true
  | .handler, _ => false
  | .switchCase, .switchCase .. => true
  | .switchCase, _ => false
  | .classBody, .classBody _ => true
  | .classBody, _ => false
  | .classMember, .methodDefinition .. => true
  | .classMember, .propertyDefinition .. => true
  | .classMember, n => n.isVerbatim
  | .arrowBody, n => n.isExpression || n.isBlock

/-- May any expression stand here? -/
def takesExpression : Slot → Bool
  | .expression | .item | .subject | .target | .loopTarget | .clause | .arrowBody => true
  | _ => false

/-- May any pattern stand here? -/
def takesPattern : Slot → Bool
  | .pattern | .element | .target | .loopTarget => true
  | _ => false

theorem allows_of_isExpression {σ : Slot} {n : Node α} (hσ : σ.takesExpression = true) (h : n.isExpression = true) :
    σ.allows n = true := by
  cases n with
  | arrowFunctionExpression f =>
    have hf : f.id.isNone = true := h
    cases σ <;> first | exact h | exact Bool.noConfusion hσ | simp [allows, Node.isExpression, hf]
  | _ => cases σ <;> first | rfl | exact Bool.noConfusion hσ | exact Bool.noConfusion h

theorem allows_of_isPattern {σ : Slot} {n : Node α} (hσ : σ.takesPattern = true) (h : n.isPattern = true) :
    σ.allows n = true := by
  cases n <;> cases σ <;> first | rfl | exact Bool.noConfusion hσ | exact Bool.noConfusion h

theorem element_of_isExpression {n : Node α} (h : n.isExpression = true) : Slot.element.allows n = n.isPattern := by
  cases n <;> first | rfl | cases h

def ofKey (computed : Bool) : Slot := if computed then .expression else .key

/-- The slot of the value of a property that stands here. -/
def value (σ : Slot) (kind : PropertyKind) (method : Bool) : Slot :=
  if σ = .patternMember then .element else if kind = .init && !method then .expression else .method

/-- The slot of a declarator in a declaration that stands here. Only `var` may give a value in the head of a loop over
something. -/
def ofDeclarator (σ : Slot) (kind : VariableKind) : Slot :=
  if σ = .loopTarget && kind ≠ .var then .bareDeclarator else .declarator

end Slot

namespace Node
variable {α : Type}

/-- Nodes that share a slot. -/
def placed (σ : Slot) (as : List α) : List (α × Slot) := as.map (·, σ)

def funcPlaces (body : Slot) (f : Func α) : List (α × Slot) :=
  placed .name f.id.toList ++ placed .element f.params ++ [(f.body, body)]

def classPlaces (c : ClassParts α) : List (α × Slot) :=
  placed .name c.id.toList ++ placed .expression c.superClass.toList ++ [(c.body, .classBody)]

/-- The children of a node that stands in `σ`, each with its own slot. -/
def places (σ : Slot) : Node α → List (α × Slot)
  | .program body => placed .statement body
  | .expressionStatement e => [(e, .expression)]
  | .blockStatement body => placed .statement body
  | .emptyStatement => []
  | .returnStatement argument => placed .expression argument.toList
  | .ifStatement test consequent alternate =>
    [(test, .expression), (consequent, .statement)] ++ placed .statement alternate.toList
  | .forStatement init test update body =>
    placed .clause init.toList ++ placed .expression test.toList ++ placed .expression update.toList ++ [(body, .statement)]
  | .forInStatement left right body => [(left, .loopTarget), (right, .expression), (body, .statement)]
  | .forOfStatement left right body _ => [(left, .loopTarget), (right, .expression), (body, .statement)]
  | .whileStatement test body => [(test, .expression), (body, .statement)]
  | .doWhileStatement body test => [(body, .statement), (test, .expression)]
  | .breakStatement label => placed .name label.toList
  | .continueStatement label => placed .name label.toList
  | .throwStatement e => [(e, .expression)]
  | .tryStatement block handler finalizer =>
    [(block, .block)] ++ placed .handler handler.toList ++ placed .block finalizer.toList
  | .catchClause param body => placed .pattern param.toList ++ [(body, .block)]
  | .switchStatement discriminant cases => (discriminant, .expression) :: placed .switchCase cases
  | .switchCase test consequent => placed .expression test.toList ++ placed .statement consequent
  | .labeledStatement label body => [(label, .name), (body, .statement)]
  | .variableDeclaration kind declarations => placed (σ.ofDeclarator kind) declarations
  | .variableDeclarator id init => (id, .pattern) :: placed .expression init.toList
  | .functionDeclaration f => funcPlaces .block f
  | .functionExpression f => funcPlaces .block f
  | .arrowFunctionExpression f => funcPlaces .arrowBody f
  | .classDeclaration c => classPlaces c
  | .classExpression c => classPlaces c
  | .classBody body => placed .classMember body
  | .methodDefinition key value _ computed _ => [(key, .ofKey computed), (value, .method)]
  | .propertyDefinition key value computed _ => (key, .ofKey computed) :: placed .expression value.toList
  | .identifier _ => []
  | .privateIdentifier _ => []
  | .literal .. => []
  | .thisExpression => []
  | .super => []
  | .arrayExpression elements => placed .item (elements.filterMap id)
  | .objectExpression properties => placed .member properties
  | .property key value kind computed _ method => [(key, .ofKey computed), (value, σ.value kind method)]
  | .spreadElement e => [(e, .expression)]
  | .unaryExpression _ e => [(e, .expression)]
  | .updateExpression _ _ e => [(e, .expression)]
  | .binaryExpression operator left right =>
    [(left, if operator = "in" then .subject else .expression), (right, .expression)]
  | .logicalExpression _ left right => [(left, .expression), (right, .expression)]
  | .assignmentExpression _ left right => [(left, .target), (right, .expression)]
  | .conditionalExpression test yes no => [(test, .expression), (yes, .expression), (no, .expression)]
  | .callExpression callee arguments _ => (callee, .expression) :: placed .item arguments
  | .newExpression callee arguments => (callee, .expression) :: placed .item arguments
  | .memberExpression object member computed _ =>
    [(object, .expression), (member, if computed then .expression else .memberName)]
  | .chainExpression e => [(e, .expression)]
  | .sequenceExpression es => placed .expression es
  | .awaitExpression e => [(e, .expression)]
  | .objectPattern properties => placed .patternMember properties
  | .arrayPattern elements => placed .element (elements.filterMap id)
  | .restElement e => [(e, .pattern)]
  | .assignmentPattern left right => [(left, .pattern), (right, .expression)]
  | .verbatim _ => []

@[simp] theorem map_fst_placed (σ : Slot) (as : List α) : (placed σ as).map Prod.fst = as := by
  simp [placed, Function.comp_def]

@[simp, grind =] theorem mem_placed {σ τ : Slot} {a : α} {as : List α} : (a, τ) ∈ placed σ as ↔ a ∈ as ∧ τ = σ := by
  grind [placed]

/-- The places of a node hold its children, in order. -/
theorem map_fst_places (σ : Slot) (n : Node α) : (n.places σ).map Prod.fst = n.children := by
  cases n <;> simp [places, children, fields, funcPlaces, classPlaces, Func.fields, ClassParts.fields]

/-- The slot of the parent counts for properties and declarations only. -/
theorem places_congr {n : Node α} (σ τ : Slot) (h : n.isExpression = true ∨ n.isDestructuring = true) :
    n.places σ = n.places τ := by
  cases n <;> first | rfl | (rcases h with h | h <;> cases h)

/-- The function of a method is an expression as well. -/
theorem expression_of_method {n : Node α} (h : Slot.method.allows n = true) :
    Slot.expression.allows n = true ∧ n.places .expression = n.places .method := by
  cases n with
  | functionExpression f => exact ⟨rfl, rfl⟩
  | _ => cases h

/-- A block is an arrow's body as well, and an arrow's body that is no block is an expression. -/
theorem arrowBody_of_block {n : Node α} (h : Slot.block.allows n = true) :
    Slot.arrowBody.allows n = true ∧ n.places .arrowBody = n.places .block := by
  cases n with
  | blockStatement body => exact ⟨rfl, rfl⟩
  | _ => cases h

theorem of_arrowBody {n : Node α} (h : Slot.arrowBody.allows n = true) :
    (n.isBlock = true ∧ n.places .block = n.places .arrowBody) ∨
      (n.isBlock = false ∧ n.isExpression = true ∧ n.places .expression = n.places .arrowBody) := by
  cases hb : n.isBlock with
  | true =>
    refine .inl ⟨rfl, ?_⟩
    cases n with
    | blockStatement body => rfl
    | _ => cases hb
  | false =>
    have he : n.isExpression = true := by simpa [Slot.allows, hb] using h
    exact .inr ⟨rfl, he, places_congr _ _ (.inl he)⟩

end Node

namespace Tree

/-- Every node of the tree is allowed where it stands, the top standing in the slot. -/
inductive Fits : Slot → Tree → Prop
  | mk {σ : Slot} {n : Node Tree} : σ.allows n = true → (∀ p ∈ n.places σ, Fits p.2 p.1) → Fits σ (.mk n)

namespace Fits
variable {σ τ : Slot} {t : Tree}

theorem allows (h : Fits σ t) : σ.allows t.node = true := by
  cases h with
  | mk h _ => exact h

theorem places (h : Fits σ t) : ∀ p ∈ t.node.places σ, Fits p.2 p.1 := by
  cases h with
  | mk _ h => exact h

theorem iff_mk {n : Node Tree} : Fits σ (.mk n) ↔ σ.allows n = true ∧ ∀ p ∈ n.places σ, Fits p.2 p.1 :=
  ⟨fun h => ⟨h.allows, h.places⟩, fun h => .mk h.1 h.2⟩

/-- A tree may stand in another slot that allows its top and asks the same of what is below. -/
theorem move (h : Fits σ t) (ht : τ.allows t.node = true) (hp : t.node.places τ = t.node.places σ) : Fits τ t := by
  cases h with
  | mk _ h => exact .mk ht (hp ▸ h)

theorem ofExpression (h : Fits .expression t) (hτ : τ.takesExpression = true) : Fits τ t :=
  h.move (Slot.allows_of_isExpression hτ h.allows) (Node.places_congr _ _ (.inl h.allows))

theorem ofPattern (h : Fits .pattern t) (hτ : τ.takesPattern = true) : Fits τ t := by
  have hp : t.node.isPattern = true := h.allows
  refine h.move (Slot.allows_of_isPattern hτ hp) (Node.places_congr _ _ ?_)
  cases hn : t.node <;> rw [hn] at hp <;> first | exact .inl rfl | exact .inr rfl | cases hp

/-- What is assigned to may get what a loop goes over. -/
theorem ofTarget (h : Fits .target t) : Fits .loopTarget t := by
  have hk : t.node.isExpression = true ∨ t.node.isDestructuring = true := by
    simpa [Slot.allows] using h.allows
  refine h.move ?_ (Node.places_congr _ _ hk)
  cases hn : t.node <;> rw [hn] at hk <;> simp_all [Slot.allows, Node.isExpression, Node.isDestructuring]

theorem ofMethod (h : Fits .method t) : Fits .expression t :=
  h.move (Node.expression_of_method h.allows).1 (Node.expression_of_method h.allows).2

end Fits

end Tree
end Graft
