import Graft.Proofs.Edit.Misplaced
/-!
# What writes nodes

Of all moves only insertions, wraps and changes write nodes, and code that is left behind takes new slots (`Editing.step_store`).
So what these keep of a store holds throughout a run (`Editing.run_keeps`).
-/

namespace Graft

/-- An insertion, a wrap or a change that succeeds. -/
inductive Editor.Edited (e : Editor) : Editor → Prop
  | insert {e' : Editor} (position : InsertPosition) (code : String) (he : e.insert position code = .ok e') : Edited e e'
  | wrap {e' : Editor} (code : String) (he : e.wrap code = .ok e') : Edited e e'
  | change {e' : Editor} (method : ChangeMethod) (value : ChangeValue) (he : e.change method value = .ok e') : Edited e e'

/-- What setting a value writes over a node: the place of the value's node, or a copy of that node. -/
inductive Node.Put (new : NodeId) (copy : Node NodeId) : Node NodeId → Node NodeId → Prop
  | declarator (id : NodeId) (init : Option NodeId) :
    Put new copy (.variableDeclarator id init) (.variableDeclarator id (some new))
  | property (key old : NodeId) (kind : PropertyKind) (computed shorthand method : Bool) :
    Put new copy (.property key old kind computed shorthand method) (.property key new .init computed false false)
  | object (properties copied : List NodeId) (hc : copy = .objectExpression copied) : Put new copy (.objectExpression properties) copy
  | literal (value : LiteralValue) (raw : String) : Put new copy (.literal value raw) copy

/-- A `set` that succeeds writes over the node at the cursor. -/
theorem Editor.set_put {e e' : Editor} {value : ChangeValue} (he : e.set value = .ok e') : ∃ new s n,
    e.insertExpression value.source = .ok (new, s) ∧ Node.Put new (s.get new) e.node n ∧ s.get e.current = e.node ∧
      e'.store = s.set e.current n ∧ e'.current = e.current := by
  unfold set at he
  cases hc : e.insertExpression value.source with
  | error => split at he <;> simp [hc, bind, Except.bind, obstacle] at he
  | ok planted =>
    obtain ⟨new, s⟩ := planted
    have still (hne : e.node ≠ .emptyStatement) : s.get e.current = e.node :=
      (insertExpression_planted hc).get _ (index_lt_of_get hne)
    simp only [hc, bind, Except.bind, pure, Except.pure] at he
    split at he
    next id init hn =>
      cases he
      exact ⟨new, s, _, rfl, hn ▸ .declarator id init, still (by simp [hn]), rfl, rfl⟩
    next key old kind computed shorthand method hn =>
      cases he
      have hget : s.get e.current = e.node := still (by simp [hn])
      rw [setPropertyValue_eq (hget.trans hn)]
      exact ⟨new, s, _, rfl, hn ▸ .property key old kind computed shorthand method, hget, rfl, rfl⟩
    next properties hn =>
      split at he
      next ho =>
        cases he
        obtain ⟨copied, hcopied⟩ := isObject_iff.1 ho
        exact ⟨new, s, _, rfl, hn ▸ .object properties copied hcopied, still (by simp [hn]), rfl, rfl⟩
      next => simp [obstacle] at he
    next v raw hn =>
      cases he
      exact ⟨new, s, _, rfl, hn ▸ .literal v raw, still (by simp [hn]), rfl, rfl⟩
    next => simp [obstacle] at he

namespace Editing
variable {σ : Editing}

/-- The nodes after a move. -/
inductive Stored (σ : Editing) (m : Move) : Store → Prop
  | same : Stored σ m σ.editor.store
  | edited {e' : Editor} (he : σ.editor.Edited e') : Stored σ m e'.store
  | scrapped {trees : List Tree} (hm : m = .scrap trees) : Stored σ m (σ.editor.store.insertAll trees).2

theorem operate_stored {m : Move} {f : Editor → Editor.Result}
    (h : ∀ e', f σ.editor = .ok e' → e'.store = σ.editor.store ∨ σ.editor.Edited e') :
    Stored σ m (σ.operate f).editor.store := by
  unfold Editing.operate
  split
  next e' he =>
    rcases h e' he with hs | hs
    · dsimp only
      rw [hs]
      exact .same
    · exact .edited hs
  next => exact .same

theorem step_stored (σ : Editing) (m : Move) : Stored σ m (σ.step m).editor.store := by
  cases m with
  | gotoChild field => exact operate_stored (f := fun e => e.gotoChild field) fun e' he => .inl (Editor.gotoChild_store he)
  | gotoElement field index =>
    exact operate_stored (f := fun e => e.gotoElement field index) fun e' he => .inl (Editor.gotoElement_store he)
  | gotoParent => exact operate_stored (f := Editor.gotoParent) fun e' he => .inl (Editor.gotoParent_store he)
  | insert position code => exact operate_stored (f := fun e => e.insert position code) fun e' he => .inr (.insert position code he)
  | wrap code => exact operate_stored (f := fun e => e.wrap code) fun e' he => .inr (.wrap code he)
  | change method value => exact operate_stored (f := fun e => e.change method value) fun e' he => .inr (.change method value he)
  | find spec => exact .same
  | findPattern pattern => exact .same
  | visit =>
    rw [Editing.step]
    split
    next => exact .same
    next => exact .same
  | leave =>
    rw [Editing.step]
    split
    next => exact .same
    next => exact .same
  | scrap trees => exact .scrapped rfl

/-- What every edit keeps, and what new trees keep that are left behind, a run keeps. -/
theorem run_keeps {P : Store → Prop} {t : Tree} {moves : List Move} (hstart : P (start t).editor.store)
    (hedit : ∀ {e e' : Editor} {K : Set NodeId}, Sound e K → e.Edited e' → P e.store → P e'.store)
    (hscrap : ∀ {e : Editor} {K : Set NodeId} {trees : List Tree}, Sound e K → .scrap trees ∈ moves → P e.store →
      P (e.store.insertAll trees).2) : P ((start t).run moves).editor.store := by
  obtain ⟨K, hk⟩ : ∃ K, Known (start t) K := ⟨_, start_known t⟩
  generalize start t = σ at hstart hk
  induction moves generalizing σ K with
  | nil => exact hstart
  | cons m moves ih =>
    have hscrap' {e : Editor} {K : Set NodeId} {trees : List Tree} (hs : Sound e K) (hm : .scrap trees ∈ moves) :=
      hscrap hs (List.mem_cons_of_mem m hm)
    obtain ⟨K', -, hk'⟩ := step_known hk m
    refine ih hscrap' K' (σ.step m) ?_ hk'
    have hstored := step_stored σ m
    generalize (σ.step m).editor.store = s at hstored
    cases hstored with
    | same => exact hstart
    | edited he => exact hedit hk.sound he hstart
    | scrapped hm => exact hscrap hk.sound (hm ▸ List.mem_cons_self) hstart

end Editing
end Graft
