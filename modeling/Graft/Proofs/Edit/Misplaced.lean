import Graft.Proofs.Edit.Editing
import Graft.Proofs.Edit.Tidy
import Graft.Proofs.Edit.Fitting
/-!
# Nodes out of place

A text that can be read gives a tree whose nodes all stand where the grammar allows them, and edits keep that with one
exception: `set` looks at the node that it changes but not at the slot (`Misplaces`). It may put any expression in place of a
literal that is a key, any value into a member of an object pattern, and a value into a declaration in the head of a loop.
So all slots hold throughout a run exactly if no move of it misplaces a value (`Editing.run_slotsHold_iff`).
-/

namespace Graft

/-- Sets a node that the root reaches to an expression that its slot does not take. -/
def Misplaces (e : Editor) (m : Move) : Prop :=
  ∃ value t σ, m = .change .set value ∧ Source.readExpression value.source = .ok t ∧
    Below e.store.slots (e.store.root, .program) (e.current, σ) ∧ Editor.misplaces σ e.node t.node = true

variable {e e' : Editor} {K : Set NodeId}

namespace Editor

/-! ## Moves that leave the nodes alone -/

theorem gotoChild_store {field : String} (he : e.gotoChild field = .ok e') : e'.store = e.store := by
  unfold gotoChild at he
  split at he
  next =>
    cases he
    rfl
  all_goals simp [obstacle] at he

theorem gotoElement_store {field : String} {index : Nat} (he : e.gotoElement field index = .ok e') : e'.store = e.store := by
  unfold gotoElement at he
  split at he
  case h_1 | h_2 =>
    dsimp only at he
    split at he
    next =>
      cases he
      rfl
    next => simp [obstacle] at he
  all_goals simp [obstacle] at he

theorem gotoParent_store (he : e.gotoParent = .ok e') : e'.store = e.store := by
  unfold gotoParent at he
  split at he
  next =>
    cases he
    rfl
  next => simp [obstacle] at he

/-! ## Setting -/

theorem set_reads {value : ChangeValue} (he : e.set value = .ok e') : ∃ t, Source.readExpression value.source = .ok t := by
  cases hr : Source.readExpression value.source with
  | ok t => exact ⟨t, rfl⟩
  | error cause =>
    have hc : e.insertExpression value.source = .error (.fragment cause) := by rw [insertExpression, hr]
    unfold set at he
    split at he <;> simp [hc, bind, Except.bind, obstacle] at he

/-- What is misplaced breaks the slots. -/
theorem set_misplaced (h : Sound e K) {value : ChangeValue} {t : Tree} (ht : Source.readExpression value.source = .ok t)
    {σ : Slot} (hb : Below e.store.slots (e.store.root, .program) (e.current, σ)) (hm : misplaces σ e.node t.node = true) :
    ∃ e', e.set value = .ok e' ∧ ¬ SlotsHold e' := by
  have hc := insertExpression_eq (e := e) ht
  obtain ⟨new, s, hplant⟩ : ∃ new s, e.store.insert t = (new, s) := ⟨_, _, rfl⟩
  rw [hplant] at hc
  have hplanted := insertExpression_planted hc
  have hnew : s.Fits .expression new := insertExpression_fits hc
  obtain ⟨hp, -⟩ := Pending.planted h h.current hplanted
  have hget : s.get e.current = e.node := hplanted.get _ (h.inside _ h.current)
  have hcur : e.current.index < s.size := hp.sound.inside _ hp.sound.current
  have hne : new ≠ e.current := by
    rintro rfl
    exact hp.spare.above _ List.mem_cons_self (.refl _)
  have hshape (σ : Slot) : σ.allows (s.get new) = σ.allows t.node := by
    have := Store.allows_insert σ t e.store
    rwa [hplant] at this
  rw [← misplaces_congr (hshape .key) (hshape .pattern)] at hm
  -- the way to the cursor stays
  have hway (n : Node NodeId) : Below (s.set e.current n).slots (s.root, .program) (e.current, σ) := by
    refine Store.below_slots_set (fun c hc => hp.sound.forest.not_below_kid hp.sound.current hc) ?_
    rw [hplanted.root]
    refine (Store.below_slots_agree fun y hy => hplanted.get y ?_).2 hb
    exact h.inside _ (h.forest.below_mem h.root hy)
  unfold misplaces at hm
  unfold set
  simp only [hc, bind, Except.bind, pure, Except.pure]
  split at hm
  next v raw hn =>
    rw [hn]
    refine ⟨_, rfl, fun hf => ?_⟩
    obtain ⟨hσ, hk⟩ := Bool.and_eq_true_iff.1 hm
    obtain rfl := of_decide_eq_true hσ
    have ha : Slot.key.allows ((s.set e.current (s.get new)).get e.current) = true := hf _ (hway _)
    rw [Store.get_set_self hcur] at ha
    have hno : (s.get new).isKey = false := by simpa using hk
    exact Bool.false_ne_true (hno.symm.trans ha)
  next key old kind computed shorthand method hn =>
    rw [hn] at hget ⊢
    refine ⟨_, rfl, fun hf => ?_⟩
    rw [setPropertyValue_eq hget] at hf
    obtain ⟨hσ, hk⟩ := Bool.and_eq_true_iff.1 hm
    obtain rfl := of_decide_eq_true hσ
    have ha : Slot.element.allows ((s.set e.current (.property key new .init computed false false)).get new) = true := by
      refine hf (new, .element) ((hway _).tail ?_)
      rw [Store.slots, Store.get_set_self hcur]
      simp [Node.places, Slot.value]
    rw [Store.get_set_of_ne hne, Slot.element_of_isExpression hnew.allows] at ha
    have hno : (s.get new).isPattern = false := by simpa using hk
    exact Bool.false_ne_true (hno.symm.trans ha)
  next _ id init hn =>
    rw [hn]
    refine ⟨_, rfl, fun hf => ?_⟩
    obtain rfl := of_decide_eq_true hm
    have ha : Slot.bareDeclarator.allows ((s.set e.current (.variableDeclarator id (some new))).get e.current) = true :=
      hf _ (hway _)
    rw [Store.get_set_self hcur] at ha
    exact Bool.false_ne_true ha
  next => cases hm

end Editor

/-! ## Runs -/

namespace Editing
variable {σ : Editing}

theorem operate_slotsHold (hf : SlotsHold σ.editor) {f : Editor → Editor.Result}
    (h : ∀ e', f σ.editor = .ok e' → SlotsHold e') : SlotsHold (σ.operate f).editor := by
  unfold Editing.operate
  split
  next e' he => exact h e' he
  next => exact hf

/-- Every other move keeps the slots right. -/
theorem step_slotsHold (h : Known σ K) (hf : SlotsHold σ.editor) {m : Move} (hm : ¬ Misplaces σ.editor m) :
    SlotsHold (σ.step m).editor := by
  -- moves and searches change links and the cursor, not the nodes
  have same {e' : Editor} (he : e'.store = σ.editor.store) : SlotsHold e' := by
    rw [SlotsHold, he]
    exact hf
  cases m with
  | gotoChild field => exact operate_slotsHold hf (f := fun e => e.gotoChild field) fun e' he => same (Editor.gotoChild_store he)
  | gotoElement field index =>
    exact operate_slotsHold hf (f := fun e => e.gotoElement field index) fun e' he => same (Editor.gotoElement_store he)
  | gotoParent => exact operate_slotsHold hf (f := Editor.gotoParent) fun e' he => same (Editor.gotoParent_store he)
  | insert position code =>
    exact operate_slotsHold hf (f := fun e => e.insert position code) fun e' he => Editor.insert_slotsHold h.sound hf he
  | wrap code => exact operate_slotsHold hf (f := fun e => e.wrap code) fun e' he => Editor.wrap_slotsHold h.sound hf he
  | change method value =>
    refine operate_slotsHold hf (f := fun e => e.change method value) fun e' he => ?_
    cases method with
    | update => exact Editor.update_slotsHold h.sound hf he
    | set =>
      obtain ⟨t, ht⟩ := Editor.set_reads he
      refine Editor.set_slotsHold h.sound hf ht (fun τ hτ => ?_) he
      by_contra hmis
      exact hm ⟨value, t, τ, rfl, ht, hτ, by simpa using hmis⟩
  | find spec => exact same rfl
  | findPattern pattern => exact same rfl
  | visit =>
    rw [Editing.step]
    split
    next => exact same rfl
    next => exact hf
  | leave =>
    rw [Editing.step]
    split
    next => exact same rfl
    next => exact hf
  | scrap trees => exact h.sound.fits_grown hf (Store.insertAll_planted trees σ.editor.store).toExtends

theorem not_slotsHold_of_misplaces (h : Known σ K) {m : Move} (hm : Misplaces σ.editor m) :
    ¬ SlotsHold (σ.step m).editor := by
  obtain ⟨value, t, τ, rfl, ht, hb, hmis⟩ := hm
  obtain ⟨e', he, hbroken⟩ := Editor.set_misplaced h.sound ht hb hmis
  have hstep : (σ.step (.change .set value)).editor = e' := by simp [Editing.step, operate, Editor.change, he]
  rwa [hstep]

/-- A text that can be read begins with right slots. -/
theorem start_slotsHold {text : String} {t : Tree} (ht : Source.readProgram text = .ok t) : SlotsHold (start t).editor :=
  Store.insert_fits (Source.readProgram_fits ht) .empty

/-- From a state with right slots on, they hold throughout exactly if no move misplaces a value. -/
theorem slotsHold_iff_of_known (h : Known σ K) (hf : SlotsHold σ.editor) (moves : List Move) :
    (∀ before, before <+: moves → SlotsHold (σ.run before).editor) ↔
      ∀ before m, before ++ [m] <+: moves → ¬ Misplaces (σ.run before).editor m := by
  constructor
  · intro hall before m hb hm
    obtain ⟨K', -, hk⟩ := run_known h before
    refine not_slotsHold_of_misplaces hk hm ?_
    have := hall (before ++ [m]) hb
    rwa [run_append] at this
  · intro hnone before hb
    induction moves generalizing σ K before with
    | nil =>
      cases List.prefix_nil.1 hb
      exact hf
    | cons m moves ih =>
      cases before with
      | nil => exact hf
      | cons m' before =>
        obtain ⟨rfl, hmoves⟩ := List.cons_prefix_cons.1 hb
        obtain ⟨K', -, hk⟩ := step_known h m'
        refine ih hk (step_slotsHold h hf (hnone [] m' (by simp))) (fun before m hb => ?_) before hmoves
        exact hnone (m' :: before) m (List.cons_prefix_cons.2 ⟨rfl, hb⟩)

end Editing
end Graft
