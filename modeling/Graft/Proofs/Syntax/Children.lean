import Graft.Syntax.Store
/-!
# Children

`Node.children` is read off the fields, `Node.traverse` is written out by constructor; `Node.children_traverse` ties
the two together. `Tree.fold_mk` does the same for `Tree.fold`, one layer at a time.
-/

namespace Graft

namespace Field
variable {α : Type u}

@[simp] theorem children_node (a : α) : (Field.node a).children = [a] := rfl

@[simp] theorem children_list (as : List α) : (Field.list as).children = as := rfl

@[simp] theorem children_holes (slots : List (Option α)) : (Field.holes slots).children = slots.filterMap id := rfl

@[simp] theorem children_text (s : String) : (Field.text s : Field α).children = [] := rfl

@[simp] theorem children_flag (b : Bool) : (Field.flag b : Field α).children = [] := rfl

@[simp] theorem children_ofOption (o : Option α) : (Field.ofOption o).children = o.toList := by cases o <;> rfl

@[simp] theorem children_field (v : LiteralValue) : (v.field : Field α).children = [] := by cases v <;> rfl

end Field

namespace Node

section Traverse
variable {α : Type u} {β : Type v} {m : Type v → Type w} [Monad m] [LawfulMonad m] (f : α → m β)

theorem traverseList_append (as bs : List α) :
    traverseList f (as ++ bs) = do return (← traverseList f as) ++ (← traverseList f bs) := by
  induction as with
  | nil => simp [traverseList]
  | cons a as ih => simp [traverseList, ih]

theorem traverseList_toList (o : Option α) : traverseList f o.toList = Option.toList <$> traverseOption f o := by
  cases o <;> simp [traverseOption, traverseList]

theorem traverseList_holes (slots : List (Option α)) :
    traverseList f (slots.filterMap id) = List.filterMap id <$> traverseList (traverseOption f) slots := by
  have hnone (bs : List (Option β)) : (none :: bs).filterMap id = bs.filterMap id := rfl
  have hsome (b : β) (bs : List (Option β)) : (some b :: bs).filterMap id = b :: bs.filterMap id := rfl
  induction slots with
  | nil => simp [traverseList]
  | cons s slots ih =>
    cases s with
    | none =>
      show traverseList f (slots.filterMap id) = _
      rw [ih]
      simp [traverseList, traverseOption, hnone, -id_eq]
    | some a =>
      show (do return (← f a) :: (← traverseList f (slots.filterMap id))) = _
      rw [ih]
      simp [traverseList, traverseOption, hsome, -id_eq]

/-- A traversal replaces the children in order. -/
theorem children_traverse (n : Node α) : children <$> n.traverse f = traverseList f n.children := by
  cases n <;>
    simp [traverse, children, fields, Func.fields, ClassParts.fields, traverseList, traverseFunc, traverseClass,
      traverseList_append, traverseList_toList, traverseList_holes, -id_eq]

end Traverse

/-- A traversal that may fail succeeds if it does so on every child. -/
theorem traverse_isSome {α : Type u} {β : Type v} {f : α → Option β} {n : Node α}
    (h : ∀ c ∈ n.children, (f c).isSome = true) : (n.traverse f).isSome = true := by
  have list (as : List α) (h : ∀ c ∈ as, (f c).isSome = true) : (traverseList f as).isSome = true := by
    induction as with
    | nil => rfl
    | cons a as ih =>
      obtain ⟨b, hb⟩ := Option.isSome_iff_exists.1 (h a List.mem_cons_self)
      obtain ⟨bs, hbs⟩ := Option.isSome_iff_exists.1 (ih fun c hc => h c (List.mem_cons_of_mem _ hc))
      simp [traverseList, hb, hbs]
  have hmap := list n.children h
  rw [← children_traverse] at hmap
  simpa using hmap

/-! ## Children of some nodes -/

section Shapes
variable {α : Type u} {n : Node α}

@[simp] theorem children_property (key value : α) (kind : PropertyKind) (computed shorthand method : Bool) :
    (property key value kind computed shorthand method).children = [key, value] := rfl

@[simp] theorem children_objectExpression (properties : List α) :
    (objectExpression properties).children = properties := List.append_nil properties

@[simp] theorem children_blockStatement (body : List α) : (blockStatement body).children = body :=
  List.append_nil body

@[simp] theorem children_returnStatement (argument : Option α) :
    (returnStatement argument).children = argument.toList := by cases argument <;> rfl

@[simp] theorem children_identifier (name : String) : (identifier name : Node α).children = [] := rfl

@[simp] theorem children_emptyStatement : (emptyStatement : Node α).children = [] := rfl

@[simp] theorem children_variableDeclarator (id : α) (init : Option α) :
    (variableDeclarator id init).children = id :: init.toList := by cases init <;> rfl

theorem children_funcFields (f : Func α) :
    (f.fields.flatMap fun field => field.2.children) = f.id.toList ++ f.params ++ [f.body] := by simp [Func.fields]

theorem children_of_func {f : Func α} (h : n.func? = some f) : n.children = f.id.toList ++ f.params ++ [f.body] := by
  unfold func? at h
  split at h <;> cases h <;> exact children_funcFields f

theorem children_withFunc {f g : Func α} (h : n.func? = some f) :
    (n.withFunc g).children = g.id.toList ++ g.params ++ [g.body] := by
  unfold func? at h
  split at h <;> cases h <;> exact children_funcFields g

theorem children_functionDeclaration (f : Func α) :
    (functionDeclaration f).children = f.id.toList ++ f.params ++ [f.body] := children_of_func rfl

/-- A node takes a longer statement list beside its other children. -/
theorem children_withStatements {statements : List α} (h : n.statements? = some statements) (as : List α) :
    ∃ others, n.children = others ++ statements ∧ (n.withStatements as).children = others ++ as := by
  unfold statements? at h
  split at h <;> cases h
  case h_3.refl _ test =>
    exact ⟨test.toList, by cases test <;> simp [children, fields, withStatements]⟩
  all_goals exact ⟨[], List.append_nil _, List.append_nil _⟩

end Shapes
end Node

namespace Tree

theorem sizeOf_children {n : Node Tree} {c : Tree} (h : c ∈ n.children) : sizeOf c < sizeOf (Tree.mk n) := by
  have list {as : List Tree} (h : c ∈ as) : sizeOf c < sizeOf as := List.sizeOf_lt_of_mem h
  have option {o : Option Tree} (h : o = some c) : sizeOf c < sizeOf o := by subst h; simp
  have holes {as : List (Option Tree)} (h : some c ∈ as) : sizeOf c < sizeOf as :=
    Nat.lt_trans (option rfl) (List.sizeOf_lt_of_mem h)
  have func {f : Func Tree} (h : f.id = some c ∨ c ∈ f.params ∨ c = f.body) : sizeOf c < sizeOf f := by
    obtain ⟨id, params, body, _, _⟩ := f
    simp only [Func.mk.sizeOf_spec] at *
    rcases h with h | h | rfl
    · have := option h
      omega
    · have := list h
      omega
    · omega
  have parts {f : ClassParts Tree} (h : f.id = some c ∨ f.superClass = some c ∨ c = f.body) :
      sizeOf c < sizeOf f := by
    obtain ⟨id, superClass, body⟩ := f
    simp only [ClassParts.mk.sizeOf_spec] at *
    rcases h with h | h | rfl
    · have := option h
      omega
    · have := option h
      omega
    · omega
  cases n <;> simp [Node.children, Node.fields, Func.fields, ClassParts.fields] at h ⊢ <;> grind

/-- Induction over trees, all children at once. -/
theorem induct {motive : Tree → Prop} (mk : ∀ n, (∀ c ∈ n.children, motive c) → motive (.mk n)) (t : Tree) :
    motive t :=
  match t with
  | .mk n => mk n fun c _ => induct mk c
termination_by sizeOf t
decreasing_by exact sizeOf_children ‹_›

section Fold
variable {m : Type → Type} {β : Type} [Monad m] [LawfulMonad m] (combine : Node (m β) → m β)

theorem traverseList_foldList (ts : List Tree) :
    Node.traverseList id (foldList combine ts) = Node.traverseList (fold combine) ts := by
  induction ts with
  | nil => rfl
  | cons t ts ih => simp [foldList, Node.traverseList, ih]

theorem traverseOption_foldOption (o : Option Tree) :
    Node.traverseOption id (foldOption combine o) = Node.traverseOption (fold combine) o := by
  cases o <;> simp [foldOption, Node.traverseOption]

theorem traverseList_foldHoles (slots : List (Option Tree)) :
    Node.traverseList (Node.traverseOption id) (foldHoles combine slots)
      = Node.traverseList (Node.traverseOption (fold combine)) slots := by
  induction slots with
  | nil => rfl
  | cons s slots ih => cases s <;> simp [foldHoles, Node.traverseList, Node.traverseOption, ih]

theorem traverseFunc_foldFunc (f : Func Tree) :
    Node.traverseFunc id (foldFunc combine f) = Node.traverseFunc (fold combine) f := by
  cases f
  simp [foldFunc, Node.traverseFunc, traverseOption_foldOption, traverseList_foldList]

theorem traverseClass_foldClass (c : ClassParts Tree) :
    Node.traverseClass id (foldClass combine c) = Node.traverseClass (fold combine) c := by
  cases c
  simp [foldClass, Node.traverseClass, traverseOption_foldOption]

/-- A fold combines the folds of the children. -/
theorem fold_mk (n : Node Tree) :
    ∃ n', (Tree.mk n).fold combine = combine n' ∧ n'.traverse id = n.traverse (fold combine) := by
  cases n <;> refine ⟨_, by rw [fold], ?_⟩ <;>
    simp [Node.traverse, traverseList_foldList, traverseOption_foldOption, traverseList_foldHoles,
      traverseFunc_foldFunc, traverseClass_foldClass]

end Fold
end Tree
end Graft
