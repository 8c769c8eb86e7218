import Graft.Edit.InPlace
import Graft.Proofs.Syntax.Store
/-!
# Operations in place and by themselves

An operation in place comes to what it comes to by itself (`perform_settled`). What differs is the store of one that fails:
the tree of its code stays there, if it had read it.
-/

namespace Graft

/-- What the code of an operation reads as. -/
def Tree.IsCode (t : Tree) : Prop := ∃ code, Source.readExpression code = .ok t

/-- The editor with trees in fresh slots that nothing holds. -/
def Editor.scrapped (e : Editor) (trees : List Tree) : Editor := { e with store := (e.store.insertAll trees).2 }

namespace Editor

variable {e e' : Editor}

/-! ## Runs -/

namespace Run
variable {α β : Type}

theorem bind_apply (x : Run α) (f : α → Run β) (e : Editor) :
    (x >>= f) e = match (x e).1 with
      | .ok a => f a (x e).2
      | .error cause => (.error cause, (x e).2) := by
  change ExceptT.bindCont f (x e).1 (x e).2 = _
  cases (x e).1 <;> rfl

theorem get_bind (f : Editor → Run β) (e : Editor) : (get >>= f) e = f e e := rfl

theorem discard_eq (x : Run α) : Functor.discard x = x >>= fun _ => pure () := by
  rw [Functor.discard, map_const, bind_pure_comp]
  rfl

end Run

/-- What an operation comes to in place, given what it comes to by itself. A failure may leave its code behind. -/
inductive Settled (e : Editor) : Result → Except EditError Unit × Editor → Prop
  | ok (e' : Editor) : Settled e (.ok e') (.ok (), e')
  | error (cause : EditError) (trees : List Tree) (hcode : ∀ t ∈ trees, t.IsCode) :
    Settled e (.error cause) (.error cause, e.scrapped trees)

namespace Settled
variable {α : Type}

/-- A failure before anything is read. -/
theorem atOnce (cause : EditError) : Settled e (.error cause) (.error cause, e) := .error cause [] nofun

theorem ofResult (f : Editor → Result) : Settled e (f e) (Run.ofResult f e) := by
  unfold Run.ofResult
  cases f e with
  | ok e' => exact .ok e'
  | error cause => exact .atOnce cause

theorem inspect {f : Editor → Except EditError α} {next : α → Result} {x : α → Run Unit}
    (h : ∀ a, f e = .ok a → Settled e (next a) (x a e)) : Settled e (f e >>= next) ((Run.inspect f >>= x) e) := by
  rw [Run.bind_apply, Run.inspect]
  cases hf : f e with
  | error cause => exact .atOnce cause
  | ok a => exact h a hf

theorem place {f : Editor → Except EditError (α × Store)} {next : α × Store → Result} {x : α → Run Unit}
    (h : ∀ a s, f e = .ok (a, s) → Settled e (next (a, s)) (x a { e with store := s })) :
    Settled e (f e >>= next) ((Run.place f >>= x) e) := by
  rw [Run.bind_apply, Run.place]
  cases hf : f e with
  | error cause => exact .atOnce cause
  | ok p => exact h p.1 p.2 hf

end Settled

/-! ## What is read -/

theorem insertExpression_scrapped {code : String} {id : NodeId} {s : Store} (h : e.insertExpression code = .ok (id, s)) :
    ∃ trees, (∀ t ∈ trees, t.IsCode) ∧ { e with store := s } = e.scrapped trees := by
  unfold insertExpression at h
  split at h
  next => cases h
  next t ht =>
    refine ⟨[t], by simpa using ⟨code, ht⟩, ?_⟩
    rw [← show (e.store.insert t).2 = s from congrArg Prod.snd (Except.ok.inj h)]
    rfl

theorem insertStatements_scrapped {code : String} {ids : List NodeId} {s : Store}
    (h : e.insertStatements code = .ok (ids, s)) : ∃ trees, { e with store := s } = e.scrapped trees := by
  have all (body : List Tree) (h : Except.ok (e.store.insertAll body) = (.ok (ids, s) : Except EditError _)) :
      ∃ trees, { e with store := s } = e.scrapped trees :=
    ⟨body, by rw [scrapped, Except.ok.inj h]⟩
  unfold insertStatements at h
  split at h
  next => cases h
  next body _ => exact all body h
  next body _ _ => exact all body h

/-- What was there before something is read is there afterwards. -/
theorem get_scrapped (trees : List Tree) {x : NodeId} (hx : x.index < e.store.size) :
    (e.scrapped trees).store.get x = e.store.get x :=
  (Store.insertAll_planted trees e.store).get x hx

theorem index_lt_of_get {s : Store} {x : NodeId} (h : s.get x ≠ .emptyStatement) : x.index < s.size := by
  by_contra hge
  exact h (Store.get_of_size_le (Nat.le_of_not_lt hge))

/-- An obstacle is reported on the node at the cursor, also after something is read. -/
theorem Settled.obstacle {trees : List Tree} (hcode : ∀ t ∈ trees, t.IsCode) (hn : e.node ≠ .emptyStatement)
    (operation : Operation) (o : Obstacle) :
    Settled e (e.obstacle operation o) (Run.fail operation o (e.scrapped trees)) := by
  have hnode : (e.scrapped trees).node = e.node := get_scrapped trees (index_lt_of_get hn)
  have hsame : (e.scrapped trees).obstacle operation o = (e.obstacle operation o : Except EditError Unit) := by
    rw [Editor.obstacle, Editor.obstacle, typeName, typeName, hnode]
  change Settled e (e.obstacle operation o) ((e.scrapped trees).obstacle operation o, e.scrapped trees)
  rw [hsame]
  exact .error _ trees hcode

/-! ## Inserting -/

theorem map_eq_ok {ε α β : Type} {f : α → β} {r : Except ε α} {b : β} (h : r.map f = .ok b) :
    ∃ a, r = .ok a ∧ f a = b := by
  cases r with
  | error => cases h
  | ok a => exact ⟨a, rfl, Except.ok.inj h⟩

theorem isBlock_iff {n : Node NodeId} : n.isBlock = true ↔ ∃ statements, n = .blockStatement statements := by
  unfold Node.isBlock
  cases n <;> simp

theorem ownList_statements {owner : NodeId} (h : e.ownList = .ok owner) :
    ∃ statements, (e.store.get owner).statements? = some statements := by
  unfold ownList at h
  split at h
  next hn =>
    cases h
    exact ⟨_, by rw [← node, hn]; rfl⟩
  next hn =>
    cases h
    exact ⟨_, by rw [← node, hn]; rfl⟩
  next =>
    split at h
    next f _ =>
      split at h
      next hb =>
        cases h
        obtain ⟨statements, hs⟩ := isBlock_iff.1 hb
        exact ⟨statements, by rw [hs]; rfl⟩
      next => simp [obstacle] at h
    next => simp [obstacle] at h

theorem placeInParent_statements {owner : NodeId} {index : Nat} (h : e.placeInParent = .ok (owner, index)) :
    ∃ statements, (e.store.get owner).statements? = some statements := by
  unfold placeInParent at h
  split at h
  next => simp [obstacle] at h
  next =>
    split at h
    next => simp [obstacle] at h
    next statements hs =>
      split at h
      next =>
        cases h
        exact ⟨statements, hs⟩
      next => simp [obstacle] at h

/-- The owner of an insertion point has a statement list, so nothing is left to check once the code is read. -/
theorem insertionPoint_statements {position : InsertPosition} {owner : NodeId} {index : Nat}
    (h : e.insertionPoint position = .ok (owner, index)) : ∃ statements, (e.store.get owner).statements? = some statements := by
  unfold insertionPoint at h
  split at h
  · obtain ⟨o, ho, heq⟩ := map_eq_ok h
    cases heq
    exact ownList_statements ho
  · obtain ⟨o, ho, heq⟩ := map_eq_ok h
    cases heq
    exact ownList_statements ho
  · exact placeInParent_statements h
  · obtain ⟨⟨o, i⟩, ho, heq⟩ := map_eq_ok h
    cases heq
    exact placeInParent_statements ho

theorem insert_settled (position : InsertPosition) (code : String) :
    Settled e (e.insert position code) (insertInPlace position code e) := by
  unfold insert insertInPlace
  refine .inspect (f := fun e => e.insertionPoint position) fun p hp => ?_
  obtain ⟨owner, index⟩ := p
  refine .place (f := fun e => e.insertStatements code) fun statements s hs => ?_
  obtain ⟨list, hlist⟩ := insertionPoint_statements hp
  obtain ⟨trees, htrees⟩ := insertStatements_scrapped hs
  have howner : owner.index < e.store.size := index_lt_of_get fun h => by simp [h, Node.statements?] at hlist
  have hkept : s.get owner = e.store.get owner := by
    rw [← get_scrapped trees howner, ← htrees]
  rw [Run.get_bind]
  dsimp only
  rw [hkept, hlist]
  exact .ok _

/-! ## Wrapping -/

theorem wrap_settled (code : String) : Settled e (e.wrap code) (wrapInPlace code e) := by
  unfold wrap wrapInPlace
  rw [Run.get_bind]
  cases hf : e.node.func? with
  | none => exact .atOnce _
  | some original =>
    have hn : e.node ≠ .emptyStatement := fun h => by simp [h, Node.func?] at hf
    -- From here on there are new nodes: each failure leaves them behind as trees that nothing holds.
    refine .place (f := fun e => e.insertExpression code) fun id s hi => ?_
    obtain ⟨trees, hcode, htrees⟩ := insertExpression_scrapped hi
    rw [Run.get_bind]
    dsimp only
    cases s.get id with
    | arrowFunctionExpression wrapper =>
      dsimp only
      split
      next =>
        rw [htrees]
        exact .obstacle hcode hn _ _
      next =>
        cases wrapper.params.head?.bind s.identifierName? with
        | some name => exact .ok _
        | none =>
          rw [htrees]
          exact .obstacle hcode hn _ _
    | _ =>
      rw [htrees]
      exact .obstacle hcode hn _ _

/-! ## Changing values -/

theorem update_settled (value : ChangeValue) : Settled e (e.update value) (updateInPlace value e) := by
  unfold update updateInPlace
  rw [Run.get_bind]
  cases ht : e.updateTarget? with
  | none => exact .atOnce _
  | some target =>
    have hn : e.node ≠ .emptyStatement := fun h => by simp [updateTarget?, h] at ht
    refine .place (f := fun e => e.insertExpression value.source) fun source s hi => ?_
    obtain ⟨trees, hcode, htrees⟩ := insertExpression_scrapped hi
    rw [Run.get_bind]
    dsimp only
    split
    next => exact .ok _
    next =>
      rw [htrees]
      exact .obstacle hcode hn _ _

theorem set_settled (value : ChangeValue) : Settled e (e.set value) (setInPlace value e) := by
  unfold Editor.set setInPlace setTarget?
  rw [Run.get_bind]
  have place := @Settled.place e _ fun e => e.insertExpression value.source
  cases hn : e.node with
  | variableDeclarator => exact place fun new s _ => .ok _
  | property => exact place fun new s _ => .ok _
  | literal => exact place fun new s _ => .ok _
  | objectExpression =>
    refine place fun new s hi => ?_
    obtain ⟨trees, hcode, htrees⟩ := insertExpression_scrapped hi
    rw [Run.get_bind]
    dsimp only
    split
    next => exact .ok _
    next =>
      rw [htrees]
      exact .obstacle hcode (fun h => by simp [h] at hn) _ _
  | _ => exact .atOnce _

/-! ## Every operation -/

/-- In place an operation does what it does by itself, but a failure may leave trees behind that nothing holds. -/
theorem perform_settled (e : Editor) (op : Edit) : Settled e (op.result e) (perform op e) := by
  cases op with
  | gotoChild field => exact .ofResult fun e => e.gotoChild field
  | gotoElement field index => exact .ofResult fun e => e.gotoElement field index
  | gotoParent => exact .ofResult gotoParent
  | insert position code => exact insert_settled position code
  | wrap code => exact wrap_settled code
  | change method value =>
    cases method with
    | update => exact update_settled value
    | set => exact set_settled value

end Editor
end Graft
