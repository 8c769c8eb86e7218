import Graft.Proofs.Syntax.Children
import Graft.Print.Printer
/-!
# What is searched and what is printed

The layout of each node is written twice: `Node.fields` gives the children that searches and patterns see, and
`Tree.pieces` prints them. The two agree (`Tree.standalone_leaves`): the leaf texts of a printed tree are the leaves
met in document order, where a shorthand member counts its key and its value once.

A node may be the part of another, and then its owner prints it (`Tree.inPlace`). `Tree.Regular` says that parts stand
with their owners and that functions have no name where none is printed.
-/

namespace Graft

namespace Piece
variable {ps qs : Pieces}

def leaf? : Piece → Option String
  | .leaf s => some s
  | _ => none

/-- The leaf texts among pieces. -/
def leaves (ps : Pieces) : List String := ps.filterMap leaf?

@[simp] theorem leaves_nil : leaves [] = [] := rfl
@[simp] theorem leaves_leaf (s : String) (ps : Pieces) : leaves (.leaf s :: ps) = s :: leaves ps := rfl
@[simp] theorem leaves_mark (s : String) (ps : Pieces) : leaves (.mark s :: ps) = leaves ps := rfl
@[simp] theorem leaves_blank (ps : Pieces) : leaves (.blank :: ps) = leaves ps := rfl
@[simp] theorem leaves_line (depth : Nat) (ps : Pieces) : leaves (.line depth :: ps) = leaves ps := rfl
@[simp] theorem leaves_append (ps qs : Pieces) : leaves (ps ++ qs) = leaves ps ++ leaves qs := List.filterMap_append

end Piece

namespace Node
variable {α : Type}

/-- The text of a leaf. -/
def leafText? : Node α → Option String
  | .identifier name => some name
  | .privateIdentifier name => some ("#" ++ name)
  | .literal _ raw => some raw
  | .thisExpression => some "this"
  | .super => some "super"
  | .verbatim text => some text
  | _ => none

def isCatchClause : Node α → Bool
  | .catchClause .. => true
  | _ => false

def isSwitchCase : Node α → Bool
  | .switchCase .. => true
  | _ => false

def isDeclarator : Node α → Bool
  | .variableDeclarator .. => true
  | _ => false

def isClassBody : Node α → Bool
  | .classBody _ => true
  | _ => false

def isMember : Node α → Bool
  | .methodDefinition .. | .propertyDefinition .. => true
  | _ => false

end Node

namespace Tree
variable {t : Tree} {ts : List Tree} {printed : Printed} {c : PrintContext}

/-! ## Leaves in document order -/

/-- The children that are printed: all of them, but the key of a shorthand member only where it is no copy of the value. -/
def shown (t : Tree) : List Tree :=
  match t.node with
  | .property key value _ _ shorthand _ => if shorthand && shorthandIntact key value then [value] else [key, value]
  | n => n.children

theorem mem_children_of_shown {u : Tree} (h : u ∈ t.shown) : u ∈ t.children := by
  rw [shown] at h
  split at h
  next key value _ _ _ _ hn =>
    rw [children, hn, Node.children_property]
    split at h
    · exact List.mem_cons_of_mem key h
    · exact h
  next => exact h

/-- The leaf texts of a tree in document order. -/
def leaves (t : Tree) : List String :=
  t.node.leafText?.toList ++ t.shown.attach.flatMap fun u => leaves u.1
termination_by sizeOf t
decreasing_by
  obtain ⟨n⟩ := t
  exact sizeOf_children (mem_children_of_shown u.2)

theorem leaves_eq (t : Tree) : t.leaves = t.node.leafText?.toList ++ t.shown.flatMap leaves := by
  rw [leaves]
  simp [List.flatMap_subtype]

/-! ## Regular trees -/

/-- Has the node a printed form of its own? -/
def IsWhole (t : Tree) : Prop := t.node.isPart = false

/-- A function without a name, or no function. -/
def Nameless (t : Tree) : Prop := ∀ f, t.node.func? = some f → f.id = none

/-- Parts of the node are what it takes them for, and where no name of a function is printed it has none. -/
def NodeRegular : Node Tree → Prop
  | .tryStatement block handler finalizer =>
    block.IsWhole ∧ (∀ h ∈ handler, h.node.isCatchClause = true) ∧ ∀ f ∈ finalizer, f.IsWhole
  | .switchStatement discriminant cases => discriminant.IsWhole ∧ ∀ s ∈ cases, s.node.isSwitchCase = true
  | .variableDeclaration _ declarations => ∀ d ∈ declarations, d.node.isDeclarator = true ∨ d.IsWhole
  | .classDeclaration ⟨id, superClass, body⟩ | .classExpression ⟨id, superClass, body⟩ =>
    (∀ i ∈ id, i.IsWhole) ∧ (∀ s ∈ superClass, s.IsWhole) ∧ body.node.isClassBody = true
  | .classBody members => ∀ m ∈ members, m.node.isMember = true ∨ m.IsWhole
  | .methodDefinition key value _ _ _ => key.IsWhole ∧ value.IsWhole ∧ value.Nameless
  | .property key value kind _ _ method =>
    key.IsWhole ∧ value.IsWhole ∧ (kind ≠ .init ∨ method = true → value.Nameless)
  | .arrowFunctionExpression f => f.id = none ∧ (∀ p ∈ f.params, p.IsWhole) ∧ f.body.IsWhole
  | n => ∀ u ∈ n.children, u.IsWhole

/-- A part that stands anywhere else has no printed form: printing it would not end. -/
inductive Regular : Tree → Prop
  | mk {n : Node Tree} (node : NodeRegular n) (below : ∀ u ∈ n.children, Regular u) : Regular (.mk n)

/-! ## Places -/

/-- A printed form shows the leaves of a tree, each once and in order. -/
def Shows (printed : Printed) (t : Tree) : Prop := ∀ c, Piece.leaves (printed c) = t.leaves

@[simp] theorem leaves_optionally (b : Bool) (ps : Pieces) :
    Piece.leaves (optionally b ps) = if b then Piece.leaves ps else [] := by cases b <;> rfl

theorem Shows.parenthesized (h : Shows printed t) : Shows (parenthesized printed) t := fun c => by
  simp [Tree.parenthesized, h c.withIn]

theorem Shows.asOperand (h : Shows printed t) {u : Tree} {least : Nat} : Shows (asOperand u printed least) t := fun c => by
  unfold Tree.asOperand
  split
  next => exact h.parenthesized c
  next => exact h c

theorem Shows.asStatement (h : Shows printed t) {u : Tree} : Shows (asStatement u printed) t := fun c => by
  unfold Tree.asStatement
  split
  next => exact h c
  next =>
    split
    next => exact h c
    next => simp [h.asOperand c]

theorem Shows.asForced (h : Shows printed t) {u : Tree} {force : Bool} {least : Nat} :
    Shows (asForced force u printed least) t := fun c => by
  unfold Tree.asForced
  split
  next => exact h.parenthesized c
  next => exact h.asOperand c

theorem Shows.asChainObject (h : Shows printed t) {u : Tree} : Shows (asChainObject u printed) t := fun c => by
  unfold Tree.asChainObject
  split
  next => exact h.parenthesized c
  next => exact h.asOperand c

theorem Shows.asMemberObject (h : Shows printed t) {u : Tree} : Shows (asMemberObject u printed) t := fun c => by
  unfold Tree.asMemberObject
  split
  next => exact h.parenthesized c
  next => exact h.asChainObject c

theorem Shows.asNewCallee (h : Shows printed t) {u : Tree} : Shows (asNewCallee u printed) t := fun c => by
  unfold Tree.asNewCallee
  split
  next => exact h.parenthesized c
  next => exact h c

theorem Shows.asKey (h : Shows printed t) {u : Tree} {computed : Bool} : Shows (asKey computed u printed) t := fun c => by
  unfold Tree.asKey
  split
  next => simp [h.asOperand c]
  next => exact h.asOperand c

section Places
variable {u : Tree} {least : Nat} (h : Shows (pieces t) t)
include h

@[simp] theorem leaves_asOperand : Piece.leaves (asOperand u (pieces t) least c) = t.leaves := h.asOperand c
@[simp] theorem leaves_asStatement : Piece.leaves (asStatement u (pieces t) c) = t.leaves := h.asStatement c
@[simp] theorem leaves_asChainObject : Piece.leaves (asChainObject u (pieces t) c) = t.leaves := h.asChainObject c
@[simp] theorem leaves_asMemberObject : Piece.leaves (asMemberObject u (pieces t) c) = t.leaves := h.asMemberObject c
@[simp] theorem leaves_asNewCallee : Piece.leaves (asNewCallee u (pieces t) c) = t.leaves := h.asNewCallee c
@[simp] theorem leaves_asKey {computed : Bool} : Piece.leaves (asKey computed u (pieces t) c) = t.leaves := h.asKey c

theorem leaves_binaryPieces (operator : String) {r : Tree} (hr : Shows (pieces r) r) :
    Piece.leaves (binaryPieces operator t (pieces t) r (pieces r) c) = t.leaves ++ r.leaves := by
  unfold binaryPieces
  dsimp only
  split
  next => simp [h.asForced c, hr]
  next => simp [h.asForced c, hr.asForced c]

end Places

/-! ## Lists -/

theorem leaves_listed (h : ∀ t ∈ ts, Shows (pieces t) t) : Piece.leaves (listed ts c) = ts.flatMap leaves := by
  induction ts with
  | nil => rfl
  | cons t ts ih =>
    have ht : Piece.leaves (asOperand t (pieces t) Level.assign c) = t.leaves := (h t List.mem_cons_self).asOperand c
    have hts := ih fun u hu => h u (List.mem_cons_of_mem _ hu)
    cases ts with
    | nil => simp [listed, ht]
    | cons u us =>
      rw [listed]
      · simp [ht, hts]
      · nofun

theorem leaves_slots {elements : List (Option Tree)} (h : ∀ t ∈ elements.filterMap id, Shows (pieces t) t) :
    Piece.leaves (slots elements c) = (elements.filterMap id).flatMap leaves := by
  induction elements with
  | nil => rfl
  | cons e elements ih =>
    have hes := ih fun u hu => h u (by cases e <;> simp_all)
    cases e with
    | none =>
      cases elements with
      | nil => rfl
      | cons d ds =>
        rw [slots]
        · simpa using hes
        · nofun
    | some t =>
      have ht : Piece.leaves (asOperand t (pieces t) Level.assign c) = t.leaves := (h t (by simp)).asOperand c
      cases elements with
      | nil => simp [slots, ht]
      | cons d ds =>
        rw [slots]
        · simp only [id_eq, Option.some.injEq, List.filterMap_cons_some] at hes ⊢
          simp [ht, hes]
        · nofun

theorem leaves_programLines (h : ∀ t ∈ ts, Shows (pieces t) t) : Piece.leaves (programLines ts c) = ts.flatMap leaves := by
  induction ts with
  | nil => rfl
  | cons t ts ih =>
    have ht := (h t List.mem_cons_self).asStatement (u := t) c
    have hts := ih fun u hu => h u (List.mem_cons_of_mem _ hu)
    cases ts with
    | nil => simp [programLines, ht]
    | cons u us =>
      rw [programLines]
      · simp [ht, hts]
      · nofun

theorem leaves_lines (h : ∀ t ∈ ts, Shows (pieces t) t) : Piece.leaves (lines ts c) = ts.flatMap leaves := by
  induction ts with
  | nil => rfl
  | cons t ts ih =>
    have ht := (h t List.mem_cons_self).asStatement (u := t) c
    simp [lines, ht, ih fun u hu => h u (List.mem_cons_of_mem _ hu)]

theorem leaves_block (h : ∀ t ∈ ts, Shows (pieces t) t) : Piece.leaves (block ts c) = ts.flatMap leaves := by
  cases ts with
  | nil => rfl
  | cons t ts =>
    have ht := (h t List.mem_cons_self).asStatement (u := t) c.deeper.withIn
    simp [block, ht, leaves_lines fun u hu => h u (List.mem_cons_of_mem _ hu)]

theorem leaves_furtherMembers (h : ∀ t ∈ ts, Shows (pieces t) t) :
    Piece.leaves (furtherMembers ts c) = ts.flatMap leaves := by
  induction ts with
  | nil => rfl
  | cons t ts ih =>
    have ht : Piece.leaves (asOperand t (pieces t) Level.assign c) = t.leaves := (h t List.mem_cons_self).asOperand c
    simp [furtherMembers, ht, ih fun u hu => h u (List.mem_cons_of_mem _ hu)]

theorem leaves_braced (h : ∀ t ∈ ts, Shows (pieces t) t) : Piece.leaves (braced ts c) = ts.flatMap leaves := by
  cases ts with
  | nil => rfl
  | cons t ts =>
    have ht : Piece.leaves (asOperand t (pieces t) Level.assign c) = t.leaves := (h t List.mem_cons_self).asOperand c
    simp [braced, ht, leaves_furtherMembers fun u hu => h u (List.mem_cons_of_mem _ hu)]

theorem leaves_switchCases (h : ∀ t ∈ ts, Shows (switchCase t) t) : Piece.leaves (switchCases ts c) = ts.flatMap leaves := by
  induction ts with
  | nil => rfl
  | cons t ts ih => simp [switchCases, h t List.mem_cons_self c, ih fun u hu => h u (List.mem_cons_of_mem _ hu)]

theorem leaves_declarators (h : ∀ t ∈ ts, Shows (asDeclarator t (declarator t) (pieces t)) t) :
    Piece.leaves (declarators ts c) = ts.flatMap leaves := by
  induction ts with
  | nil => rfl
  | cons t ts ih =>
    have ht := h t List.mem_cons_self c
    have hts := ih fun u hu => h u (List.mem_cons_of_mem _ hu)
    cases ts with
    | nil => simp [declarators, ht]
    | cons u us =>
      rw [declarators]
      · simp [ht, hts]
      · nofun

theorem leaves_memberLines (h : ∀ t ∈ ts, Shows (asMember t (classMember t) (pieces t)) t) :
    Piece.leaves (memberLines ts c) = ts.flatMap leaves := by
  induction ts with
  | nil => rfl
  | cons t ts ih => simp [memberLines, h t List.mem_cons_self c, ih fun u hu => h u (List.mem_cons_of_mem _ hu)]

/-! ## Nodes -/

/-- The printed form of a node where it belongs. -/
def inPlace (t : Tree) : Printed :=
  match t.node with
  | .catchClause .. => catchClause t
  | .switchCase .. => switchCase t
  | .variableDeclarator .. => declarator t
  | .classBody _ => classBody t
  | .methodDefinition .. | .propertyDefinition .. => classMember t
  | _ => pieces t

theorem inPlace_of_isWhole (h : t.IsWhole) : t.inPlace = pieces t := by
  obtain ⟨n⟩ := t
  cases n <;> first | rfl | cases h

theorem leaves_function {f : Func Tree} (h : ∀ u ∈ f.id.toList ++ f.params ++ [f.body], Shows (pieces u) u) :
    Piece.leaves (function f c) = (f.id.toList ++ f.params ++ [f.body]).flatMap leaves := by
  obtain ⟨id, params, body, isAsync, generator⟩ := f
  have hparams (p : Tree) (hp : p ∈ params) : Shows (pieces p) p := h p (by simp [hp])
  have hbody : Shows (pieces body) body := h body (by simp)
  cases id with
  | none =>
    show Piece.leaves (optionally isAsync [_, _] ++ _ :: optionally generator [_] ++ [_] ++ [] ++ _ :: listed params c ++
      [_, _] ++ asStatement body (pieces body) c) = _
    simp [leaves_listed hparams, hbody]
  | some i =>
    show Piece.leaves (optionally isAsync [_, _] ++ _ :: optionally generator [_] ++ [_] ++ asOperand i (pieces i) _ c ++
      _ :: listed params c ++ [_, _] ++ asStatement body (pieces body) c) = _
    simp [leaves_listed hparams, hbody, h i (by simp)]

section Functions
variable {f : Func Tree} (h : ∀ u ∈ f.params ++ [f.body], Shows (pieces u) u)
include h

theorem leaves_arrow : Piece.leaves (arrow f c) = (f.params ++ [f.body]).flatMap leaves := by
  obtain ⟨id, params, body, isAsync, generator⟩ := f
  have hbody : Shows (pieces body) body := h body (by simp)
  have hb : Piece.leaves (if body.node.isBlock then asStatement body (pieces body) c
      else if startsWithBrace body then .mark "(" :: asOperand body (pieces body) Level.assign c ++ [.mark ")"]
      else asOperand body (pieces body) Level.assign c) = body.leaves := by
    split
    next => simp [hbody]
    next => split <;> simp [hbody]
  show Piece.leaves (optionally isAsync [_, _] ++ _ :: listed params c ++ [_, _, _, _] ++ _) = _
  rw [Piece.leaves_append, hb]
  simp [leaves_listed fun p hp => h p (List.mem_append_left _ hp)]

theorem leaves_signature : Piece.leaves (signature f c) = (f.params ++ [f.body]).flatMap leaves := by
  obtain ⟨id, params, body, isAsync, generator⟩ := f
  have hbody : Shows (pieces body) body := h body (by simp)
  show Piece.leaves (_ :: listed params c ++ [_, _] ++ asStatement body (pieces body) c) = _
  simp [leaves_listed fun p hp => h p (List.mem_append_left _ hp), hbody]

end Functions

theorem leaves_classPieces {k : ClassParts Tree} (hid : ∀ i ∈ k.id, Shows (pieces i) i)
    (hsuper : ∀ s ∈ k.superClass, Shows (pieces s) s) (hbody : Shows (classBody k.body) k.body) :
    Piece.leaves (classPieces k c) = (k.id.toList ++ k.superClass.toList ++ [k.body]).flatMap leaves := by
  obtain ⟨id, superClass, body⟩ := k
  have hb : Piece.leaves (classBody body c) = body.leaves := hbody c
  cases id with
  | none =>
    cases superClass with
    | none =>
      show Piece.leaves (_ :: [] ++ [] ++ _ :: classBody body c) = _
      simp [hb]
    | some s =>
      show Piece.leaves (_ :: [] ++ ([_, _, _] ++ asOperand s (pieces s) _ c) ++ _ :: classBody body c) = _
      simp [hb, hsuper s rfl]
  | some i =>
    cases superClass with
    | none =>
      show Piece.leaves (_ :: (_ :: asOperand i (pieces i) _ c) ++ [] ++ _ :: classBody body c) = _
      simp [hb, hid i rfl]
    | some s =>
      show Piece.leaves (_ :: (_ :: asOperand i (pieces i) _ c) ++ ([_, _, _] ++ asOperand s (pieces s) _ c) ++
        _ :: classBody body c) = _
      simp [hb, hid i rfl, hsuper s rfl]

/-- The leaves of a node that is no leaf and leaves out no child. -/
theorem leaves_node {n : Node Tree} (hl : n.leafText? = none) (hs : shown (.mk n) = n.children) :
    leaves (.mk n) = n.children.flatMap leaves := by
  rw [leaves_eq, hs]
  simp [node, hl]

theorem shows_head {kind : VariableKind} {declarations : List Tree}
    (h : Shows (pieces (.mk (.variableDeclaration kind declarations))) (.mk (.variableDeclaration kind declarations))) :
    Shows (head (.mk (.variableDeclaration kind declarations))) (.mk (.variableDeclaration kind declarations)) := fun c => by
  have hp : pieces (.mk (.variableDeclaration kind declarations)) c =
      head (.mk (.variableDeclaration kind declarations)) c ++ [.mark ";"] := rfl
  have := h c
  rw [hp] at this
  simpa using this

/-- A declaration in the head of a loop loses its semicolon only. -/
@[simp] theorem leaves_asHead (h : Shows (pieces t) t) {u : Tree} {least : Nat} :
    Piece.leaves (asOperand u (asHead t (head t) (pieces t)) least c) = t.leaves := by
  refine Shows.asOperand ?_ c
  unfold asHead
  split
  next kind declarations hn =>
    obtain ⟨n⟩ := t
    cases hn
    exact shows_head h
  next => exact h

theorem inPlace_of_isCatchClause (h : t.node.isCatchClause = true) : t.inPlace = catchClause t := by
  obtain ⟨n⟩ := t
  cases n <;> first | rfl | cases h

theorem inPlace_of_isSwitchCase (h : t.node.isSwitchCase = true) : t.inPlace = switchCase t := by
  obtain ⟨n⟩ := t
  cases n <;> first | rfl | cases h

theorem inPlace_of_isClassBody (h : t.node.isClassBody = true) : t.inPlace = classBody t := by
  obtain ⟨n⟩ := t
  cases n <;> first | rfl | cases h

theorem shows_asDeclarator (h : t.node.isDeclarator = true ∨ t.IsWhole) (ht : Shows t.inPlace t) :
    Shows (asDeclarator t (declarator t) (pieces t)) t := by
  obtain ⟨n⟩ := t
  unfold asDeclarator
  split
  next id init hn =>
    cases hn
    exact ht
  next hn =>
    rw [inPlace_of_isWhole (h.resolve_left ?_)] at ht
    · exact ht.asOperand
    · cases n <;> first | exact (hn _ _ rfl).elim | exact Bool.false_ne_true

theorem shows_asMember (h : t.node.isMember = true ∨ t.IsWhole) (ht : Shows t.inPlace t) :
    Shows (asMember t (classMember t) (pieces t)) t := by
  obtain ⟨n⟩ := t
  unfold asMember
  split
  next hn =>
    cases hn
    exact ht
  next hn =>
    cases hn
    exact ht
  next hm hp =>
    rw [inPlace_of_isWhole (h.resolve_left ?_)] at ht
    · exact ht.asStatement
    · cases n <;> first | exact (hm _ _ _ _ _ rfl).elim | exact (hp _ _ _ _ rfl).elim | exact Bool.false_ne_true

theorem leaves_class {k : ClassParts Tree} (hn : NodeRegular (.classExpression k))
    (ih : ∀ u ∈ (Node.classExpression k).children, Shows u.inPlace u) :
    Piece.leaves (classPieces k c) = (Node.classExpression k).children.flatMap leaves := by
  have hchildren : (Node.classExpression k).children = k.id.toList ++ k.superClass.toList ++ [k.body] := by
    simp [Node.children, Node.fields, ClassParts.fields]
  rw [hchildren] at ih ⊢
  obtain ⟨hid, hsuper, hbody⟩ := hn
  refine leaves_classPieces (fun i hi => ?_) (fun s hs => ?_) ?_
  · have hshows := ih i (by simp [Option.mem_def.1 hi])
    rwa [inPlace_of_isWhole (hid i hi)] at hshows
  · have hshows := ih s (by simp [Option.mem_def.1 hs])
    rwa [inPlace_of_isWhole (hsuper s hs)] at hshows
  · have hshows := ih k.body (by simp)
    rwa [inPlace_of_isClassBody hbody] at hshows

theorem leaves_loop (init test update body : Pieces) :
    Piece.leaves ([Piece.mark "for", Piece.blank, Piece.mark "("] ++ init ++ [Piece.mark ";"] ++ test ++ [Piece.mark ";"] ++ update ++
      [Piece.mark ")", Piece.blank] ++ body) =
    Piece.leaves init ++ (Piece.leaves test ++ (Piece.leaves update ++ Piece.leaves body)) := by simp

theorem wholes_of_func {n : Node Tree} {f : Func Tree} (hf : n.func? = some f) (hn : NodeRegular n) :
    ∀ u ∈ n.children, u.IsWhole := by
  cases n with
  | functionDeclaration => exact hn
  | functionExpression => exact hn
  | arrowFunctionExpression g =>
    obtain ⟨hid, hparams, hbody⟩ := hn
    rw [Node.children_of_func rfl, hid]
    intro u hu
    rcases List.mem_append.1 hu with hu | hu
    · exact hparams u (by simpa using hu)
    · rw [List.mem_singleton.1 hu]
      exact hbody
  | _ => cases hf

section Nodes
variable {n : Node Tree} (hn : NodeRegular n) (ih : ∀ u ∈ n.children, Shows u.inPlace u)
include ih

theorem shows_wholes (hw : ∀ u ∈ n.children, u.IsWhole) : ∀ u ∈ n.children, Shows (pieces u) u := fun u hu =>
  inPlace_of_isWhole (hw u hu) ▸ ih u hu

theorem shows_whole {u : Tree} (hu : u ∈ n.children) (hw : u.IsWhole) : Shows (pieces u) u :=
  inPlace_of_isWhole hw ▸ ih u hu

include hn

theorem leaves_statement (h : n.isStatement = true) : Piece.leaves (pieces (.mk n) c) = n.children.flatMap leaves := by
  -- Each case says what the printer makes of the node. The underscores are marks and blanks, which hold no leaves.
  cases n with
  | expressionStatement e =>
    show Piece.leaves ((if needsStatementParens e then _ :: asOperand e (pieces e) _ c ++ [_]
      else asOperand e (pieces e) _ c) ++ [_]) = _
    split <;> simp [Node.children, Node.fields, shows_wholes ih hn]
  | blockStatement body =>
    rw [Node.children_blockStatement]
    exact leaves_block (Node.children_blockStatement body ▸ shows_wholes ih hn)
  | emptyStatement => rfl
  | returnStatement argument =>
    cases argument with
    | none => rfl
    | some e =>
      show Piece.leaves (_ :: (_ :: asOperand e (pieces e) _ c) ++ [_]) = _
      simp [Node.children, Node.fields, shows_wholes ih hn]
  | ifStatement test consequent alternate =>
    cases alternate with
    | none =>
      show Piece.leaves ([_, _, _] ++ asOperand test (pieces test) _ c ++ [_, _] ++
        asStatement consequent (pieces consequent) c ++ []) = _
      simp [Node.children, Node.fields, shows_wholes ih hn]
    | some alternate =>
      show Piece.leaves ([_, _, _] ++ asOperand test (pieces test) _ c ++ [_, _] ++
        (if hasDanglingIf consequent then [_, _] ++ asStatement consequent (pieces consequent) c.deeper.withIn ++ [_, _]
          else asStatement consequent (pieces consequent) c) ++
        ([_, _, _] ++ asStatement alternate (pieces alternate) c)) = _
      split <;> simp [Node.children, Node.fields, shows_wholes ih hn]
  | forStatement init test update body =>
    cases init <;> cases test <;> cases update <;> refine (leaves_loop _ _ _ _).trans ?_ <;>
      simp [Node.children, Node.fields, shows_wholes ih hn]
  | forInStatement left right body =>
    show Piece.leaves ([_, _, _] ++ asOperand left (asHead left (head left) (pieces left)) _ c ++ [_, _, _] ++
      asOperand right (pieces right) _ c ++ [_, _] ++ asStatement body (pieces body) c) = _
    simp [Node.children, Node.fields, shows_wholes ih hn]
  | forOfStatement left right body isAwait =>
    show Piece.leaves ([_, _] ++ optionally isAwait [_, _] ++ [_] ++ asOperand left (asHead left (head left) (pieces left)) _ c ++
      [_, _, _] ++ asOperand right (pieces right) _ c ++ [_, _] ++ asStatement body (pieces body) c) = _
    simp [Node.children, Node.fields, shows_wholes ih hn]
  | whileStatement test body =>
    show Piece.leaves ([_, _, _] ++ asOperand test (pieces test) _ c ++ [_, _] ++ asStatement body (pieces body) c) = _
    simp [Node.children, Node.fields, shows_wholes ih hn]
  | doWhileStatement body test =>
    show Piece.leaves ([_, _] ++ asStatement body (pieces body) c ++ [_, _, _, _] ++ asOperand test (pieces test) _ c ++
      [_, _]) = _
    simp [Node.children, Node.fields, shows_wholes ih hn]
  | breakStatement label =>
    cases label with
    | none => rfl
    | some l =>
      show Piece.leaves (_ :: (_ :: asOperand l (pieces l) _ c) ++ [_]) = _
      simp [Node.children, Node.fields, shows_wholes ih hn]
  | continueStatement label =>
    cases label with
    | none => rfl
    | some l =>
      show Piece.leaves (_ :: (_ :: asOperand l (pieces l) _ c) ++ [_]) = _
      simp [Node.children, Node.fields, shows_wholes ih hn]
  | throwStatement e =>
    show Piece.leaves (_ :: _ :: asOperand e (pieces e) _ c ++ [_]) = _
    simp [Node.children, Node.fields, shows_wholes ih hn]
  | tryStatement block handler finalizer =>
    clear h
    obtain ⟨hblock, hhandler, hfinalizer⟩ := hn
    have hb : Shows (pieces block) block := shows_whole ih (by simp [Node.children, Node.fields]) hblock
    -- a handler is no statement of its own: only `catchClause` prints it
    have hh (h : Tree) (hh : handler = some h) : Piece.leaves (catchClause h c) = h.leaves := by
      have := ih h (by simp [Node.children, Node.fields, hh])
      rw [inPlace_of_isCatchClause (hhandler h hh)] at this
      exact this c
    have hf (f : Tree) (hf : finalizer = some f) : Shows (pieces f) f :=
      shows_whole ih (by simp [Node.children, Node.fields, hf]) (hfinalizer f hf)
    cases handler with
    | none =>
      cases finalizer with
      | none =>
        show Piece.leaves ([_, _] ++ asStatement block (pieces block) c ++ [] ++ []) = _
        simp [Node.children, Node.fields, hb]
      | some f =>
        show Piece.leaves ([_, _] ++ asStatement block (pieces block) c ++ [] ++
          ([_, _, _] ++ asStatement f (pieces f) c)) = _
        simp [Node.children, Node.fields, hb, hf f rfl]
    | some h =>
      cases finalizer with
      | none =>
        show Piece.leaves ([_, _] ++ asStatement block (pieces block) c ++ catchClause h c ++ []) = _
        simp [Node.children, Node.fields, hb, hh h rfl]
      | some f =>
        show Piece.leaves ([_, _] ++ asStatement block (pieces block) c ++ catchClause h c ++
          ([_, _, _] ++ asStatement f (pieces f) c)) = _
        simp [Node.children, Node.fields, hb, hh h rfl, hf f rfl]
  | switchStatement discriminant cases =>
    obtain ⟨hd, hcases⟩ := hn
    have hd : Shows (pieces discriminant) discriminant := shows_whole ih (by simp [Node.children, Node.fields]) hd
    have hcs (s : Tree) (hs : s ∈ cases) : Shows (switchCase s) s := by
      have := ih s (by simp [Node.children, Node.fields, hs])
      rwa [inPlace_of_isSwitchCase (hcases s hs)] at this
    show Piece.leaves ([_, _, _] ++ asOperand discriminant (pieces discriminant) _ c ++ [_, _, _] ++
      switchCases cases c.deeper ++ [_, _]) = _
    simp [Node.children, Node.fields, hd, leaves_switchCases hcs]
  | labeledStatement label body =>
    show Piece.leaves (asOperand label (pieces label) _ c ++ [_, _] ++ asStatement body (pieces body) c) = _
    simp [Node.children, Node.fields, shows_wholes ih hn]
  | variableDeclaration kind declarations =>
    have hds (d : Tree) (hd : d ∈ declarations) : Shows (asDeclarator d (declarator d) (pieces d)) d :=
      shows_asDeclarator (hn d hd) (ih d (by simp [Node.children, Node.fields, hd]))
    show Piece.leaves (_ :: _ :: declarators declarations c ++ [_]) = _
    simp [Node.children, Node.fields, leaves_declarators hds]
  | functionDeclaration f =>
    have hs := shows_wholes ih hn
    rw [Node.children_functionDeclaration] at hs ⊢
    exact leaves_function hs
  | classDeclaration k => exact leaves_class hn ih
  | _ => cases h

theorem leaves_expression
    (sig : ∀ u ∈ n.children, ∀ f, u.node.func? = some f → f.id = none → Shows (signatureAndBody u) u) (h : n.isStatement = false) (hp : n.isPart = false) :
    Piece.leaves (pieces (.mk n) c) = leaves (.mk n) := by
  cases n with
  | program body =>
    have hbody (u : Tree) (hu : u ∈ body) : Shows (pieces u) u := shows_wholes ih hn u (by simp [Node.children, Node.fields, hu])
    rw [leaves_node rfl rfl]
    show Piece.leaves (programLines body c) = _
    simp [Node.children, Node.fields, leaves_programLines hbody]
  | identifier name | privateIdentifier name | thisExpression | super | verbatim text =>
    rw [leaves_eq]
    rfl
  | literal value raw =>
    rw [leaves_eq]
    show [raw] = [raw] ++ (Node.literal value raw).children.flatMap leaves
    simp [Node.children, Node.fields]
  | arrayExpression elements | arrayPattern elements =>
    have hs (u : Tree) (hu : u ∈ elements.filterMap id) : Shows (pieces u) u :=
      shows_wholes ih hn u (by simp [Node.children, Node.fields, hu, -id_eq, -List.mem_filterMap])
    rw [leaves_node rfl rfl]
    show Piece.leaves (_ :: slots elements c ++ optionally (isLastHole elements) [_] ++ [_]) = _
    simp [Node.children, Node.fields, leaves_slots hs, -id_eq]
  | objectExpression properties | objectPattern properties =>
    have hs (u : Tree) (hu : u ∈ properties) : Shows (pieces u) u :=
      shows_wholes ih hn u (by simp [Node.children, Node.fields, hu])
    rw [leaves_node rfl rfl]
    show Piece.leaves (braced properties c) = _
    simp [Node.children, Node.fields, leaves_braced hs]
  | property key value kind computed shorthand method =>
    obtain ⟨hkey, hvalue, hname⟩ := hn
    have hk : Shows (pieces key) key := shows_whole ih (by simp) hkey
    have hv : Shows (pieces value) value := shows_whole ih (by simp) hvalue
    rw [leaves_eq]
    show Piece.leaves (if shorthand && shorthandIntact key value then asOperand value (pieces value) _ c
      else if kind ≠ .init || method then (_ : Pieces)
      else asKey computed key (pieces key) c ++ [_, _] ++ asOperand value (pieces value) _ c) =
      List.flatMap leaves (if shorthand && shorthandIntact key value then [value] else [key, value])
    split
    next => simp [hv]
    next =>
      split
      next hm =>
        split
        next f hf =>
          have hsignature : Piece.leaves (signatureAndBody value c) = value.leaves :=
            sig value (by simp) f hf (hname (by simpa using hm) f hf) c
          cases kind <;> simp [hk, hsignature]
        next => simp [hk, hv]
      next => simp [hk, hv]
  | functionExpression f =>
    rw [leaves_node rfl rfl]
    have hs := shows_wholes ih hn
    rw [Node.children_of_func rfl] at hs ⊢
    exact leaves_function hs
  | arrowFunctionExpression f =>
    have hs := shows_wholes ih (wholes_of_func rfl hn)
    rw [leaves_node rfl rfl]
    rw [Node.children_of_func rfl, hn.1] at hs ⊢
    exact leaves_arrow hs
  | classExpression k =>
    rw [leaves_node rfl rfl]
    exact leaves_class hn ih
  | spreadElement e | restElement e =>
    rw [leaves_node rfl rfl]
    show Piece.leaves (_ :: asOperand e (pieces e) _ c) = _
    simp [Node.children, Node.fields, shows_wholes ih hn]
  | unaryExpression operator e =>
    rw [leaves_node rfl rfl]
    show Piece.leaves (_ :: optionally (unaryGap operator e) [_] ++ asOperand e (pieces e) _ c) = _
    simp [Node.children, Node.fields, shows_wholes ih hn]
  | updateExpression operator isBefore e =>
    rw [leaves_node rfl rfl]
    show Piece.leaves (if isBefore then _ :: asOperand e (pieces e) _ c else asOperand e (pieces e) _ c ++ [_]) = _
    split <;> simp [Node.children, Node.fields, shows_wholes ih hn]
  | binaryExpression operator l r | logicalExpression operator l r =>
    rw [leaves_node rfl rfl]
    show Piece.leaves (binaryPieces operator l (pieces l) r (pieces r) c) = _
    rw [leaves_binaryPieces (shows_wholes ih hn l (by simp [Node.children, Node.fields])) operator
      (shows_wholes ih hn r (by simp [Node.children, Node.fields]))]
    simp [Node.children, Node.fields]
  | assignmentExpression operator l r | assignmentPattern l r =>
    rw [leaves_node rfl rfl]
    show Piece.leaves (asOperand l (pieces l) _ c ++ [_, _, _] ++ asOperand r (pieces r) _ c) = _
    simp [Node.children, Node.fields, shows_wholes ih hn]
  | conditionalExpression test yes no =>
    rw [leaves_node rfl rfl]
    show Piece.leaves (asOperand test (pieces test) _ c ++ [_, _, _] ++ asOperand yes (pieces yes) _ c ++ [_, _, _] ++
      asOperand no (pieces no) _ c) = _
    simp [Node.children, Node.fields, shows_wholes ih hn]
  | callExpression callee arguments optional =>
    have hs (u : Tree) (hu : u ∈ arguments) : Shows (pieces u) u :=
      shows_wholes ih hn u (by simp [Node.children, Node.fields, hu])
    rw [leaves_node rfl rfl]
    show Piece.leaves (asChainObject callee (pieces callee) c ++ optionally optional [_] ++ [_] ++ listed arguments c ++ [_]) = _
    simp [Node.children, Node.fields, shows_wholes ih hn, leaves_listed hs]
  | newExpression callee arguments =>
    have hs (u : Tree) (hu : u ∈ arguments) : Shows (pieces u) u :=
      shows_wholes ih hn u (by simp [Node.children, Node.fields, hu])
    rw [leaves_node rfl rfl]
    show Piece.leaves ([_, _] ++ asNewCallee callee (pieces callee) c ++ [_] ++ listed arguments c ++ [_]) = _
    simp [Node.children, Node.fields, shows_wholes ih hn, leaves_listed hs]
  | memberExpression object member computed optional =>
    rw [leaves_node rfl rfl]
    show Piece.leaves (asMemberObject object (pieces object) c ++
      (if computed then optionally optional [_] ++ _ :: asOperand member (pieces member) _ c ++ [_]
        else _ :: pieces member c)) = _
    have hm : Shows (pieces member) member := shows_wholes ih hn member (by simp [Node.children, Node.fields])
    split <;> simp [Node.children, Node.fields, shows_wholes ih hn, hm c]
  | chainExpression e =>
    rw [leaves_node rfl rfl]
    show Piece.leaves (pieces e c) = _
    simp [Node.children, Node.fields, shows_wholes ih hn e (by simp [Node.children, Node.fields]) c]
  | sequenceExpression es =>
    have hs (u : Tree) (hu : u ∈ es) : Shows (pieces u) u := shows_wholes ih hn u (by simp [Node.children, Node.fields, hu])
    rw [leaves_node rfl rfl]
    show Piece.leaves (listed es c) = _
    simp [Node.children, Node.fields, leaves_listed hs]
  | awaitExpression e =>
    rw [leaves_node rfl rfl]
    show Piece.leaves ([_, _] ++ asOperand e (pieces e) _ c) = _
    simp [Node.children, Node.fields, shows_wholes ih hn]
  | _ => first | exact (Bool.noConfusion h) | exact (Bool.noConfusion hp)

theorem leaves_part (sig : ∀ u ∈ n.children, ∀ f, u.node.func? = some f → f.id = none → Shows (signatureAndBody u) u)
    (h : n.isPart = true) : Piece.leaves (inPlace (.mk n) c) = n.children.flatMap leaves := by
  cases n with
  | catchClause param body =>
    cases param with
    | none =>
      show Piece.leaves ([_, _, _] ++ [] ++ asStatement body (pieces body) c) = _
      simp [Node.children, Node.fields, shows_wholes ih hn]
    | some p =>
      show Piece.leaves ([_, _, _] ++ (_ :: asOperand p (pieces p) _ c ++ [_, _]) ++ asStatement body (pieces body) c) = _
      simp [Node.children, Node.fields, shows_wholes ih hn]
  | switchCase test consequent =>
    have hs (u : Tree) (hu : u ∈ consequent) : Shows (pieces u) u :=
      shows_wholes ih hn u (by simp [Node.children, Node.fields, hu])
    cases test with
    | none =>
      show Piece.leaves (_ :: [_, _] ++ lines consequent c.deeper) = _
      simp [Node.children, Node.fields, leaves_lines hs]
    | some t =>
      show Piece.leaves (_ :: ([_, _] ++ asOperand t (pieces t) _ c ++ [_]) ++ lines consequent c.deeper) = _
      simp [Node.children, Node.fields, shows_wholes ih hn, leaves_lines hs]
  | variableDeclarator id init =>
    cases init with
    | none =>
      show Piece.leaves (asOperand id (pieces id) _ c ++ []) = _
      simp [Node.children, Node.fields, shows_wholes ih hn]
    | some e =>
      show Piece.leaves (asOperand id (pieces id) _ c ++ ([_, _, _] ++ asOperand e (pieces e) _ c)) = _
      simp [Node.children, Node.fields, shows_wholes ih hn]
  | classBody members =>
    have hs (m : Tree) (hm : m ∈ members) : Shows (asMember m (classMember m) (pieces m)) m :=
      shows_asMember (hn m hm) (ih m (by simp [Node.children, Node.fields, hm]))
    show Piece.leaves (if members.isEmpty then [_, _] else _ :: memberLines members c.deeper ++ [_, _]) = _
    split
    next he => simp [List.isEmpty_iff.1 he, Node.children, Node.fields]
    next => simp [Node.children, Node.fields, leaves_memberLines hs]
  | methodDefinition key value kind computed isStatic =>
    obtain ⟨hkey, hvalue, hname⟩ := hn
    have hk : Shows (pieces key) key := shows_whole ih (by simp [Node.children, Node.fields]) hkey
    have hv : Shows (pieces value) value := shows_whole ih (by simp [Node.children, Node.fields]) hvalue
    show Piece.leaves (optionally isStatic [_, _] ++ (_ : Pieces)) = _
    split
    next f hf =>
      have hsignature : Piece.leaves (signatureAndBody value c) = value.leaves :=
        sig value (by simp [Node.children, Node.fields]) f hf (hname f hf) c
      cases kind <;> simp [Node.children, Node.fields, hk, hsignature]
    next => simp [Node.children, Node.fields, hk, hv]
  | propertyDefinition key value computed isStatic =>
    cases value with
    | none =>
      show Piece.leaves (optionally isStatic [_, _] ++ asKey computed key (pieces key) c ++ [] ++ [_]) = _
      simp [Node.children, Node.fields, shows_wholes ih hn]
    | some e =>
      show Piece.leaves (optionally isStatic [_, _] ++ asKey computed key (pieces key) c ++
        ([_, _, _] ++ asOperand e (pieces e) _ c) ++ [_]) = _
      simp [Node.children, Node.fields, shows_wholes ih hn]
  | _ => cases h

end Nodes

theorem leaves_signatureAndBody {n : Node Tree} {f : Func Tree} (hf : n.func? = some f) (hid : f.id = none)
    (hs : ∀ u ∈ n.children, Shows (pieces u) u) : Piece.leaves (signatureAndBody (.mk n) c) = leaves (.mk n) := by
  rw [Node.children_of_func hf, hid] at hs
  have hl : leaves (.mk n) = (f.params ++ [f.body]).flatMap leaves := by
    rw [leaves_node, Node.children_of_func hf, hid]
    · simp
    · cases n <;> first | rfl | cases hf
    · cases n <;> first | rfl | cases hf
  rw [hl, ← leaves_signature (by simpa using hs)]
  cases n <;> cases hf <;> rfl

/-- What a regular tree shows in its place, and as a method. -/
theorem Regular.shows (h : t.Regular) :
    Shows t.inPlace t ∧ ∀ f, t.node.func? = some f → f.id = none → Shows (signatureAndBody t) t := by
  induction h with
  | @mk n hn _ ih =>
    have hshows (u : Tree) (hu : u ∈ n.children) : Shows u.inPlace u := (ih u hu).1
    have hsig (u : Tree) (hu : u ∈ n.children) := (ih u hu).2
    refine ⟨fun c => ?_, fun f hf hid c => leaves_signatureAndBody hf hid ?_⟩
    · by_cases hp : n.isPart = true
      · rw [leaves_part hn hshows hsig hp, leaves_node]
        · cases n <;> first | rfl | cases hp
        · cases n <;> first | rfl | cases hp
      · have hw : IsWhole (.mk n) := Bool.eq_false_iff.2 hp
        rw [inPlace_of_isWhole hw]
        by_cases hs : n.isStatement = true
        · rw [leaves_statement hn hshows hs, leaves_node]
          · cases n <;> first | rfl | cases hs
          · cases n <;> first | rfl | cases hs
        · exact leaves_expression hn hshows hsig (Bool.eq_false_iff.2 hs) hw
    · exact shows_wholes hshows (wholes_of_func hf hn)

/-- The leaves of a printed tree are those that a search meets, each printed once and in document order, where the key of
a shorthand member is one with its value. -/
theorem standalone_leaves (h : t.Regular) (hw : t.IsWhole) :
    t.print = Piece.join t.standalone ∧ Piece.leaves t.standalone = t.leaves := by
  have := h.shows.1 {}
  rw [inPlace_of_isWhole hw] at this
  exact ⟨rfl, this⟩

/-- The shorthand `a` shows once, and `b` with its value. -/
theorem members_leaves :
    let name (s : String) : Tree := .mk (.identifier s)
    let t : Tree := .mk (.objectExpression [.mk (.property (name "a") (name "a") .init false true false),
      .mk (.property (name "b") (name "c") .init false false false)])
    t.Regular ∧ t.IsWhole ∧ t.print = Piece.join t.standalone ∧ Piece.leaves t.standalone = t.leaves := by
  have leaf (s : String) : Regular (.mk (.identifier s)) := .mk nofun nofun
  have member (key value : String) (shorthand : Bool) :
      Regular (.mk (.property (.mk (.identifier key)) (.mk (.identifier value)) .init false shorthand false)) := by
    refine .mk ⟨rfl, rfl, nofun⟩ ?_
    simp [leaf]
  have h : Regular (.mk (.objectExpression [.mk (.property (.mk (.identifier "a")) (.mk (.identifier "a")) .init false true false),
      .mk (.property (.mk (.identifier "b")) (.mk (.identifier "c")) .init false false false)])) := by
    refine .mk ?_ ?_
    · rintro u (_ | ⟨_, _ | ⟨_, ⟨⟩⟩⟩) <;> rfl
    · simp [Node.children, Node.fields, member]
  exact ⟨h, rfl, standalone_leaves h rfl⟩

end Tree
end Graft
