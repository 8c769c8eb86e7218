import Graft.Proofs.Edit.Wrap
import Graft.Proofs.Source.Programs
import Graft.Proofs.Syntax.Fitting
/-!
# Edits and slots

`SlotsHold` says that every node that the root reaches is allowed where it stands. Inserting, merging and wrapping keep that:
what they write is made of nodes that stood there and of the code's own, which fits as it was read. Setting keeps it unless
the slot does not take the new value (`misplaces`).
-/

namespace Graft

variable {e e' : Editor} {B K K' : Set NodeId} {w : NodeId} {ls rest : List NodeId} {σ τ : Slot} {x : NodeId} {code : String}

/-- Every node that the root reaches is allowed where it stands. -/
def SlotsHold (e : Editor) : Prop := e.store.Fits .program e.store.root

/-! ## Writing pending nodes -/

theorem Sound.fits_grown (h : Sound e K) (hf : SlotsHold e) {s : Store} {held : List NodeId} (hs : e.store.Extends s held) :
    s.Fits .program s.root :=
  hs.root ▸ hf.grown (fun _ hy => h.inside _ (h.forest.below_mem h.root hy)) hs

theorem Sound.kid_ready (h : Sound e K) (hf : e.store.Fits σ x) (hb : Below e.store.slots (x, σ) (w, τ)) (hw : w ∈ K)
    {p : NodeId × Slot} (hp : p ∈ e.store.slots (w, τ)) : e.store.Ready w p.2 p.1 := by
  have hc : p.1 ∈ e.store.children w := Store.mem_children_of_mem_slots hp
  exact ⟨h.arena w _ hc, h.forest.not_below_kid hw hc, (hf.below hb).kid hp⟩

theorem Pending.ready (h : Pending e B K w ls) (hx : x ∈ ls) (hf : e.store.Fits σ x) : e.store.Ready w σ x :=
  ⟨h.sound.inside _ (h.spare.loose x hx).1, h.spare.above x hx, hf⟩

/-- A write keeps what fits if the new node may stand where the old one did, and holds what that held and pending nodes that
fit. -/
theorem Pending.write_fits (h : Pending e B K w ls) {n : Node NodeId} (hf : e.store.Fits σ x)
    (hn : ∀ τ, Below e.store.slots (x, σ) (w, τ) → τ.allows (e.store.get w) = true → τ.allows n = true ∧
      ∀ p ∈ n.places τ, p ∈ e.store.slots (w, τ) ∨ (p.1 ∈ ls ∧ e.store.Fits p.2 p.1)) : (e.store.set w n).Fits σ x := by
  refine hf.write (h.sound.inside w h.spare.mem) fun τ hb => ?_
  obtain ⟨ha, hp⟩ := hn τ hb (hf _ hb)
  refine ⟨ha, fun p hmem => (hp p hmem).elim (h.sound.kid_ready hf hb h.spare.mem) fun hnew => h.ready hnew.1 hnew.2⟩

namespace Editor

/-! ## Fragments -/

theorem insertExpression_eq {t : Tree} (h : Source.readExpression code = .ok t) :
    e.insertExpression code = .ok (e.store.insert t) := by
  rw [insertExpression, h]

theorem insertExpression_fits {id : NodeId} {s : Store} (h : e.insertExpression code = .ok (id, s)) :
    s.Fits .expression id := by
  unfold insertExpression at h
  split at h
  next => cases h
  next t ht =>
    have hf := Store.insert_fits (Source.readExpression_fits ht) e.store
    rwa [Except.ok.inj h] at hf

theorem insertStatements_fits {ids : List NodeId} {s : Store} (h : e.insertStatements code = .ok (ids, s)) :
    ∀ x ∈ ids, s.Fits .statement x := by
  have all {body : List Tree} (hb : ∀ t ∈ body, Tree.Fits .statement t)
      (h : Except.ok (e.store.insertAll body) = (.ok (ids, s) : Except EditError _)) : ∀ x ∈ ids, s.Fits .statement x := by
    have hf := Store.insertAll_fits hb e.store
    rwa [Except.ok.inj h] at hf
  unfold insertStatements at h
  split at h
  next => cases h
  next body hr =>
    refine all (fun t ht => ?_) h
    have hblock := (Source.readStatements_fits hr _ (List.mem_singleton_self _)).places
    exact hblock (t, .statement) (by simpa [Tree.node, Node.places] using ht)
  next body _ hr => exact all (Source.readStatements_fits hr) h

/-! ## Inserting -/

theorem allows_withStatements {n : Node NodeId} {statements : List NodeId} (h : n.statements? = some statements)
    (as : List NodeId) (σ : Slot) : σ.allows (n.withStatements as) = σ.allows n := by
  unfold Node.statements? at h
  split at h <;> cases h <;> cases σ <;> rfl

/-- The statements of a list stand as statements, and so do those put in their place. -/
theorem places_withStatements {n : Node NodeId} {statements : List NodeId} (h : n.statements? = some statements)
    (as : List NodeId) (σ : Slot) : ∃ others, n.places σ = others ++ Node.placed .statement statements ∧
      (n.withStatements as).places σ = others ++ Node.placed .statement as := by
  unfold Node.statements? at h
  split at h <;> cases h
  · exact ⟨[], rfl, rfl⟩
  · exact ⟨[], rfl, rfl⟩
  · exact ⟨_, rfl, rfl⟩

theorem splice_slotsHold {owner : NodeId} {index : Nat} {statements list : List NodeId} (h : Pending e B K owner statements)
    (hf : SlotsHold e) (hs : ∀ x ∈ statements, e.store.Fits .statement x)
    (hl : (e.store.get owner).statements? = some list) : SlotsHold (e.splice owner index statements) := by
  simp only [SlotsHold, splice, hl, Option.getD_some]
  refine h.write_fits hf fun τ _ ha => ⟨by rw [allows_withStatements hl, ha], fun p hp => ?_⟩
  obtain ⟨others, hold, hnew⟩ := places_withStatements hl (list.take index ++ statements ++ list.drop index) τ
  rw [hnew] at hp
  rw [Store.slots, hold]
  obtain ⟨c, υ⟩ := p
  simp only [List.mem_append, Node.mem_placed] at hp ⊢
  rcases hp with hp | ⟨(hc | hc) | hc, rfl⟩
  · exact .inl (.inl hp)
  · exact .inl (.inr ⟨List.mem_of_mem_take hc, rfl⟩)
  · exact .inr ⟨hc, hs c hc⟩
  · exact .inl (.inr ⟨List.mem_of_mem_drop hc, rfl⟩)

theorem insert_slotsHold (h : Sound e K) (hf : SlotsHold e) {position : InsertPosition} (he : e.insert position code = .ok e') :
    SlotsHold e' := by
  obtain ⟨owner, index, statements, s, hpoint, hread, rfl⟩ := insert_ok he
  obtain ⟨list, hlist⟩ := insertionPoint_statements hpoint
  have howner := insertionPoint_known h hpoint
  have hplanted := insertStatements_planted hread
  obtain ⟨hp, -⟩ := Pending.planted h howner hplanted
  have hlist' : (s.get owner).statements? = some list := hplanted.get owner (h.inside owner howner) ▸ hlist
  exact splice_slotsHold hp (h.fits_grown hf hplanted.toExtends) (insertStatements_fits hread) hlist'

/-! ## Setting -/

/-- Does a slot refuse what setting a node there to the expression makes of it? A key takes names, strings and numbers only, a
member of an object pattern patterns only, and what a loop declares with `let` or `const` no value at all. -/
def misplaces {α β : Type} (σ : Slot) : Node α → Node β → Bool
  | .literal .., v => σ = .key && !v.isKey
  | .property .., v => σ = .patternMember && !v.isPattern
  | .variableDeclarator .., _ => σ = .bareDeclarator
  | _, _ => false

theorem misplaces_congr {α β γ : Type} {σ : Slot} {n : Node α} {v : Node β} {v' : Node γ} (hk : v.isKey = v'.isKey)
    (hp : v.isPattern = v'.isPattern) : misplaces σ n v = misplaces σ n v' := by
  unfold misplaces
  split <;> simp [hk, hp]

/-- A slot that has a literal takes an expression that is not misplaced there. -/
theorem allows_of_literal {value : LiteralValue} {raw : String} {v : Node NodeId}
    (ha : σ.allows (.literal value raw : Node NodeId) = true) (hv : v.isExpression = true)
    (hm : misplaces σ (.literal value raw : Node NodeId) v = false) : σ.allows v = true := by
  cases σ with
  | key =>
    have hk : (!v.isKey) = false := hm
    simpa [Slot.allows] using hk
  | _ => first | exact Slot.allows_of_isExpression rfl hv | cases ha

/-- A slot that has a property gives it a value slot that takes an expression which is not misplaced there. -/
theorem allows_value {key value new : NodeId} {kind : PropertyKind} {computed shorthand method : Bool} {v : Node NodeId}
    (ha : σ.allows (.property key value kind computed shorthand method : Node NodeId) = true) (hv : v.isExpression = true)
    (hm : misplaces σ (.property key value kind computed shorthand method : Node NodeId) v = false) :
    σ.allows (.property key new .init computed false false : Node NodeId) = true ∧ (σ.value .init false).allows v = true := by
  cases σ with
  | member => exact ⟨rfl, hv⟩
  | patternMember =>
    have hp : (!v.isPattern) = false := hm
    exact ⟨rfl, Slot.allows_of_isPattern rfl (by simpa using hp)⟩
  | _ => cases ha

theorem allows_objectExpression (σ : Slot) (as bs : List NodeId) :
    σ.allows (.objectExpression as : Node NodeId) = σ.allows (.objectExpression bs : Node NodeId) := by
  cases σ <;> rfl

/-- The node at the cursor gets the shape of a new expression that its slot takes. -/
theorem overwrite_slotsHold {g : NodeId} (h : Pending e B K e.current [g]) (hf : SlotsHold e) (hg : e.store.Fits .expression g)
    (hn : ∀ τ, Below e.store.slots (e.store.root, .program) (e.current, τ) → τ.allows (e.store.get e.current) = true →
      τ.allows (e.store.get g) = true) : SlotsHold (e.overwrite (e.store.get g)) := by
  have hp : Pending e B (K \ {g}) e.current (e.store.children g) := by simpa using h.opened.1
  refine hp.write_fits hf fun τ hb ha => ⟨hn τ hb ha, fun p hmem => .inr ?_⟩
  rw [Node.places_congr τ .expression (.inl hg.allows)] at hmem
  exact ⟨Store.mem_children_of_mem_slots (p := (g, .expression)) hmem, hg.kid hmem⟩

/-- Setting keeps what is not misplaced. -/
theorem set_slotsHold (h : Sound e K) (hf : SlotsHold e) {value : ChangeValue} {t : Tree}
    (ht : Source.readExpression value.source = .ok t)
    (hm : ∀ τ, Below e.store.slots (e.store.root, .program) (e.current, τ) → misplaces τ e.node t.node = false)
    (he : e.set value = .ok e') : SlotsHold e' := by
  have hc := insertExpression_eq (e := e) ht
  obtain ⟨new, s, hplant⟩ : ∃ new s, e.store.insert t = (new, s) := ⟨_, _, rfl⟩
  rw [hplant] at hc
  have hplanted := insertExpression_planted hc
  have hnew : s.Fits .expression new := insertExpression_fits hc
  have hroot : SlotsHold { e with store := s } := h.fits_grown hf hplanted.toExtends
  obtain ⟨hp, -⟩ := Pending.planted h h.current hplanted
  have hget : s.get e.current = e.node := hplanted.get _ (h.inside _ h.current)
  have hshape (σ : Slot) : σ.allows (s.get new) = σ.allows t.node := by
    have := Store.allows_insert σ t e.store
    rwa [hplant] at this
  -- reading the code has changed nothing above the cursor, so nothing is misplaced there now either
  have hfree (τ : Slot) (hb : Below s.slots (s.root, .program) (e.current, τ)) : misplaces τ e.node (s.get new) = false := by
    rw [misplaces_congr (hshape .key) (hshape .pattern)]
    rw [hplanted.root] at hb
    refine hm τ ((Store.below_slots_agree fun y hy => hplanted.get y ?_).1 hb)
    exact h.inside _ (h.forest.below_mem h.root hy)
  unfold set at he
  simp only [hc, bind, Except.bind, pure, Except.pure] at he
  split at he
  next id init hn =>
    cases he
    rw [hn] at hget hfree
    refine hp.write_fits hroot fun τ hb ha => ?_
    have hslots : s.slots (e.current, τ) = (.variableDeclarator id init : Node NodeId).places τ := by rw [Store.slots, hget]
    rw [hslots]
    rw [hget] at ha
    refine ⟨?_, by grind [Node.places]⟩
    cases τ with
    | declarator => rfl
    | bareDeclarator => exact absurd (hfree .bareDeclarator hb) (by simp [misplaces])
    | _ => cases ha
  next key old kind computed shorthand method hn =>
    cases he
    rw [hn] at hget hfree
    rw [setPropertyValue_eq hget]
    refine hp.write_fits hroot fun τ hb ha => ?_
    have hslots : s.slots (e.current, τ) = (.property key old kind computed shorthand method : Node NodeId).places τ := by
      rw [Store.slots, hget]
    rw [hslots]
    rw [hget] at ha
    obtain ⟨hplain, hvalue⟩ := allows_value ha hnew.allows (hfree τ hb)
    have hfits := hnew.move hvalue (Node.places_congr _ _ (.inl hnew.allows))
    exact ⟨hplain, by grind [Node.places]⟩
  next hn =>
    split at he
    next ho =>
      cases he
      refine overwrite_slotsHold hp hroot hnew fun τ _ ha => ?_
      obtain ⟨members, hmembers⟩ := isObject_iff.1 ho
      rw [hget, hn] at ha
      rw [hmembers]
      exact (allows_objectExpression τ _ _).trans ha
    next => simp [obstacle] at he
  next hn =>
    cases he
    refine overwrite_slotsHold hp hroot hnew fun τ hb ha => ?_
    rw [hn] at hget hfree
    exact allows_of_literal (hget ▸ ha) hnew.allows (hfree τ hb)
  next => simp [obstacle] at he

/-! ## Merging -/

theorem slot_of_kid (h : Sound e K) {c p : NodeId} (hp : p ∈ K) (hc : c ∈ e.store.children p)
    (hb : Below e.store.slots (e.store.root, .program) (c, τ)) :
    ∃ υ, Below e.store.slots (e.store.root, .program) (p, υ) ∧ (c, τ) ∈ e.store.slots (p, υ) := by
  rcases Relation.ReflTransGen.cases_tail hb with he | ⟨⟨q, υ⟩, hq, hcq⟩
  · cases he
    exact absurd hc (h.top p)
  · have hqK : q ∈ K := h.forest.below_mem h.root (Store.below_of_slots hq)
    obtain rfl := h.forest.holder q hqK p hp c (Store.mem_children_of_mem_slots hcq) hc
    exact ⟨υ, hq, hcq⟩

theorem slots_of_object {s : Store} {id : NodeId} (ho : s.isObject id = true) (σ : Slot) :
    s.slots (id, σ) = Node.placed .member (s.members id) := by
  obtain ⟨properties, hp⟩ := isObject_iff.1 ho
  simp [Store.slots, Store.members, hp, Node.places]

/-- A change that keeps the slots right and leaves alone the nodes in waiting. -/
structure KeepsFits (e e' : Editor) (rest : List NodeId) : Prop where
  slots : SlotsHold e → SlotsHold e'
  waiting : ∀ ℓ ∈ rest, ∀ σ, e.store.Fits σ ℓ → e'.store.Fits σ ℓ

namespace KeepsFits
variable {e'' : Editor} {more : List NodeId}

theorem refl (e : Editor) (rest : List NodeId) : KeepsFits e e rest := ⟨id, fun _ _ _ => id⟩

theorem trans (h : KeepsFits e e' (more ++ rest)) (h' : KeepsFits e' e'' rest) : KeepsFits e e'' rest :=
  ⟨h'.slots ∘ h.slots, fun ℓ hℓ σ hf => h'.waiting ℓ hℓ σ (h.waiting ℓ (List.mem_append_right _ hℓ) σ hf)⟩

theorem attached {n : Node NodeId} {linked : List NodeId} (h : Pending e B K w (ls ++ rest))
    (hn : SlotsHold e → ∀ τ, Below e.store.slots (e.store.root, .program) (w, τ) → τ.allows (e.store.get w) = true →
      τ.allows n = true ∧ ∀ p ∈ n.places τ, p ∈ e.store.slots (w, τ) ∨ (p.1 ∈ ls ∧ e.store.Fits p.2 p.1)) :
    KeepsFits e (Pending.attached e w n linked) rest where
  slots hf := (h.take (List.sublist_append_left ls rest).subperm).write_fits hf (hn hf)
  waiting ℓ hℓ _ hf :=
    hf.write_aside (h.sound.inside w h.spare.mem) (h.spare.above ℓ (List.mem_append_right _ hℓ))

end KeepsFits

section Merge
variable {target member existing old new : NodeId} {members : List NodeId}

/-- The value of a member is an expression, a method's function included. -/
theorem value_fits {s : Store} (hm : s.Fits .member member) (hv : s.propertyValue? member = some new) :
    s.Fits .expression new := by
  obtain ⟨key, kind, computed, shorthand, method, hp⟩ := propertyValue?_eq_some hv
  have hkid : (new, Slot.member.value kind method) ∈ s.slots (member, .member) := by simp [Store.slots, hp, Node.places]
  have hnew := hm.kid hkid
  simp only [Slot.value, reduceCtorEq, if_false] at hnew
  split at hnew
  next => exact hnew
  next => exact hnew.ofMethod

theorem members_fit {s : Store} (hf : s.Fits σ new) (ho : s.isObject new = true) : ∀ m ∈ s.members new, s.Fits .member m :=
  fun m hm => hf.kid (p := (m, .member)) (by simpa [slots_of_object ho] using hm)

theorem appendMember_keeps (h : Pending e B K target (member :: rest)) (ho : e.store.isObject target = true)
    (hm : e.store.Fits .member member) : KeepsFits e (e.appendMember target member) rest := by
  obtain ⟨properties, hp, happ⟩ := appendMember_eq member ho
  rw [happ]
  have h' : Pending e B K target ([member] ++ rest) := h
  refine .attached h' fun _ τ _ ha => ⟨?_, ?_⟩
  · rw [hp] at ha
    exact (allows_objectExpression τ _ _).trans ha
  · rw [Store.slots, hp]
    grind [Node.places]

theorem setPropertyValue_keeps (h : Pending e B K existing (new :: rest)) (hK : target ∈ K)
    (hmem : existing ∈ e.store.children target) (ho : e.store.isObject target = true)
    (hold : e.store.propertyValue? existing = some old) (hnew : e.store.Fits .expression new) :
    KeepsFits e (e.setPropertyValue existing new) rest := by
  obtain ⟨key, kind, computed, shorthand, method, hp⟩ := propertyValue?_eq_some hold
  rw [setPropertyValue_eq hp]
  have h' : Pending e B K existing ([new] ++ rest) := h
  refine .attached h' fun _ τ hb ha => ?_
  obtain ⟨υ, -, hυ⟩ := slot_of_kid h.sound hK hmem hb
  obtain rfl : τ = .member := by
    rw [slots_of_object ho, Node.mem_placed] at hυ
    exact hυ.2
  rw [Store.slots, hp]
  have hvalue : Slot.member.value .init false = .expression := rfl
  exact ⟨rfl, by grind [Node.places]⟩

/-- Merging members that fit keeps the slots right. -/
theorem mergeMembers_keeps (depth : Nat) (h : Pending e B K target (members ++ rest)) (ho : e.store.isObject target = true)
    (hfit : ∀ m ∈ members, e.store.Fits .member m) : KeepsFits e (e.mergeMembers target depth members) rest := by
  induction depth generalizing e K target members rest with
  | zero => simpa only [mergeMembers] using .refl e rest
  | succ depth ih =>
    cases members with
    | nil => simpa only [mergeMembers] using .refl e rest
    | cons member more =>
      have hmember := hfit member List.mem_cons_self
      -- what is left to merge still fits once the first member is merged
      have go {e₁ : Editor} {K₁ : Set NodeId} (hkeeps : KeepsFits e e₁ (more ++ rest))
          (hp : Pending e₁ B K₁ target (more ++ rest)) (hm : Merged e e₁ B K K₁ [member] (more ++ rest)) :
          KeepsFits e (e₁.mergeMembers target depth more) rest := by
        refine hkeeps.trans (ih hp ((hm.object target).trans ho) fun m hmem => ?_)
        exact hkeeps.waiting m (List.mem_append_left _ hmem) _ (hfit m (List.mem_cons_of_mem _ hmem))
      rw [mergeMembers]
      split
      next existing old new hc =>
        obtain ⟨hv, hmem, hold⟩ := counterpart?_eq_some hc
        rw [members_eq ho] at hmem
        split
        next hobj =>
          obtain ⟨hoo, hon⟩ := Bool.and_eq_true_iff.1 hobj
          obtain ⟨K₁, hp₁, hm₁⟩ := deeper_merged h hmem hv hold hon fun hp => mergeMembers_merged depth hp hoo
          obtain ⟨K₂, hp₂⟩ := inner_pending h hmem hv hold hon
          exact go (ih hp₂ hoo (members_fit (value_fits hmember hv) hon)) hp₁ hm₁
        next =>
          obtain ⟨K₁, hp₁, hm₁⟩ := replaced_merged h hmem hv hold
          refine go ?_ hp₁ hm₁
          obtain ⟨K₂, hp₂, -⟩ := parts_pending h (List.singleton_sublist.2 (mem_children_of_propertyValue? hv))
          exact setPropertyValue_keeps (hp₂.at_kid hmem) hp₂.spare.mem hmem ho hold (value_fits hmember hv)
      next =>
        obtain ⟨hp₁, hm₁⟩ := appendMember_merged h ho
        exact go (appendMember_keeps h ho hmember) hp₁ hm₁

end Merge

theorem update_slotsHold (h : Sound e K) (hf : SlotsHold e) {value : ChangeValue} (he : e.update value = .ok e') :
    SlotsHold e' := by
  obtain ⟨target, source, s, ht, hread, hsource, rfl⟩ := update_ok he
  obtain ⟨hK, hobj⟩ := updateTarget?_known h ht
  have hplanted := insertExpression_planted hread
  obtain ⟨hp, -⟩ := Pending.planted h hK hplanted
  obtain ⟨K₁, hp₁, -⟩ := parts_pending hp (List.Sublist.refl _)
  rw [← members_eq hsource] at hp₁
  have hot : s.isObject target = true := by
    rwa [Store.isObject, hplanted.get target (h.inside target hK)]
  have hfit := members_fit (insertExpression_fits hread) hsource
  exact (mergeMembers_keeps (s.size + 1) hp₁ hot hfit).slots (h.fits_grown hf hplanted.toExtends)

/-! ## Wrapping -/

/-- More slots, in which what was ready for `w` still is. -/
structure Grown (s s' : Store) (w : NodeId) : Prop where
  closed : s'.Closed
  inside : w.index < s'.size
  ready : ∀ σ x, s.Ready w σ x → s'.Ready w σ x

namespace Grown
variable {s s' s'' : Store}

theorem refl (hs : s.Closed) (hw : w.index < s.size) : Grown s s w := ⟨hs, hw, fun _ _ => id⟩

theorem trans (h : Grown s s' w) (h' : Grown s' s'' w) : Grown s s'' w :=
  ⟨h'.closed, h'.inside, fun σ x hx => h'.ready σ x (h.ready σ x hx)⟩

/-- A new node that holds ready nodes. -/
theorem alloc (hs : s.Closed) (hw : w.index < s.size) {n : Node NodeId} (ha : σ.allows n = true)
    (hn : ∀ p ∈ n.places σ, s.Ready w p.2 p.1) :
    Grown s (s.alloc n).2 w ∧ (s.alloc n).2.Ready w σ (s.alloc n).1 := by
  refine ⟨⟨hs.alloc fun c hc => ?_, ?_, fun _ _ hx => hx.alloc hs⟩, .new hs hw ha hn⟩
  · rw [← Node.map_fst_places σ] at hc
    obtain ⟨p, hp, rfl⟩ := List.mem_map.1 hc
    exact (hn p hp).inside
  · rw [Store.size_alloc]
    exact hw.trans (Nat.lt_succ_self _)

end Grown

section Wrap
variable {s : Store} {body inner : NodeId} {original : Func NodeId}

theorem blockBody_ready (hs : s.Closed) (hw : w.index < s.size) (hb : s.Ready w .arrowBody body) :
    Grown s (blockBody s body).2 w ∧ (blockBody s body).2.Ready w .block (blockBody s body).1 := by
  rcases hb.fits.arrowBody with ⟨hblock, hf⟩ | ⟨hblock, hf⟩
  · rw [blockBody_of_block hblock]
    exact ⟨.refl hs hw, hb.inside, hb.above, hf⟩
  · rw [blockBody_of_expression hblock]
    have hvalue : s.Ready w .expression body := ⟨hb.inside, hb.above, hf⟩
    obtain ⟨hg, hret⟩ := Grown.alloc (σ := .statement) hs hw (n := .returnStatement (some body)) rfl (by grind [Node.places])
    obtain ⟨hg', hready⟩ := Grown.alloc (σ := .block) hg.closed hg.inside
      (n := .blockStatement [(s.alloc (.returnStatement (some body))).1]) rfl (by grind [Node.places])
    exact ⟨hg.trans hg', hready⟩

theorem bodyStatements_ready (hs : s.Closed) (hw : w.index < s.size) (hb : s.Ready w .arrowBody body) :
    Grown s (bodyStatements s body).2 w ∧ ∀ x ∈ (bodyStatements s body).1, (bodyStatements s body).2.Ready w .statement x := by
  unfold bodyStatements
  split
  next statements hn =>
    refine ⟨.refl hs hw, fun x hx => hb.kid (p := (x, .statement)) hs ?_⟩
    simpa [Store.slots, hn, Node.places] using hx
  next hn =>
    have hf : s.Fits .expression body := by
      rcases hb.fits.arrowBody with ⟨hblock, -⟩ | ⟨-, hf⟩
      · obtain ⟨statements, hget⟩ := isBlock_iff.1 hblock
        exact absurd hget (hn statements)
      · exact hf
    have hvalue : s.Ready w .expression body := ⟨hb.inside, hb.above, hf⟩
    obtain ⟨hg, hret⟩ := Grown.alloc (σ := .statement) hs hw (n := .returnStatement (some body)) rfl (by grind [Node.places])
    exact ⟨hg, by simpa using hret⟩

theorem allocInner_ready (name : String) (hs : s.Closed) (hw : w.index < s.size)
    (hparams : ∀ c ∈ original.params, s.Ready w .element c) (hb : s.Ready w .arrowBody original.body) :
    Grown s (allocInner s original name).2 w ∧
      (allocInner s original name).2.Ready w .statement (allocInner s original name).1 := by
  obtain ⟨hg₁, hblock⟩ := blockBody_ready hs hw hb
  obtain ⟨block, s₁, hs₁⟩ : ∃ block s₁, blockBody s original.body = (block, s₁) := ⟨_, _, rfl⟩
  simp only [hs₁] at hg₁ hblock
  obtain ⟨hg₂, hid⟩ := Grown.alloc (σ := .name) hg₁.closed hg₁.inside (n := .identifier name) rfl nofun
  obtain ⟨innerId, s₂, hs₂⟩ : ∃ innerId s₂, s₁.alloc (.identifier name) = (innerId, s₂) := ⟨_, _, rfl⟩
  simp only [hs₂] at hg₂ hid
  have hparams₂ (c : NodeId) (hc : c ∈ original.params) : s₂.Ready w .element c := (hg₁.trans hg₂).ready _ _ (hparams c hc)
  have hblock₂ : s₂.Ready w .block block := hg₂.ready _ _ hblock
  obtain ⟨hg₃, hinner⟩ := Grown.alloc (σ := .statement) hg₂.closed hg₂.inside
    (n := .functionDeclaration { original with id := some innerId, body := block }) rfl
    (by grind [Node.places, Node.funcPlaces])
  simp only [allocInner, hs₁, hs₂]
  exact ⟨(hg₁.trans hg₂).trans hg₃, hinner⟩

theorem allocOuter_ready (hs : s.Closed) (hw : w.index < s.size) (hi : s.Ready w .statement inner)
    (hb : s.Ready w .arrowBody body) :
    Grown s (allocOuter s inner body).2 w ∧ (allocOuter s inner body).2.Ready w .block (allocOuter s inner body).1 := by
  obtain ⟨hg₁, hstatements⟩ := bodyStatements_ready hs hw hb
  obtain ⟨statements, s₁, hs₁⟩ : ∃ statements s₁, bodyStatements s body = (statements, s₁) := ⟨_, _, rfl⟩
  simp only [hs₁] at hg₁ hstatements
  have hi₁ : s₁.Ready w .statement inner := hg₁.ready _ _ hi
  obtain ⟨hg₂, hblock⟩ := Grown.alloc (σ := .block) hg₁.closed hg₁.inside (n := .blockStatement (inner :: statements)) rfl
    (by grind [Node.places])
  simp only [allocOuter, hs₁, allocBlock]
  exact ⟨hg₁.trans hg₂, hblock⟩

/-- Where a function stands, it may stand with other parameters and another body. -/
theorem allows_withFunc {n : Node NodeId} {f g : Func NodeId} (h : n.func? = some f) (hid : g.id = f.id) (σ : Slot) :
    σ.allows (n.withFunc g) = σ.allows n := by
  obtain ⟨id, params, body, isAsync, generator⟩ := f
  obtain ⟨id', params', body', isAsync', generator'⟩ := g
  cases hid
  unfold Node.func? at h
  split at h <;> cases h <;> cases σ <;> rfl

/-- A function holds its name, its parameters and its body, an arrow perhaps an expression. -/
theorem places_of_func {n : Node NodeId} {f : Func NodeId} (h : n.func? = some f) :
    ∃ b, (b = .block ∨ b = .arrowBody) ∧ (∀ σ, n.places σ = Node.funcPlaces b f) ∧
      ∀ g σ, (n.withFunc g).places σ = Node.funcPlaces b g := by
  unfold Node.func? at h
  split at h <;> cases h
  · exact ⟨.block, .inl rfl, fun _ => rfl, fun _ _ => rfl⟩
  · exact ⟨.block, .inl rfl, fun _ => rfl, fun _ _ => rfl⟩
  · exact ⟨.arrowBody, .inr rfl, fun _ => rfl, fun _ _ => rfl⟩

theorem wrapFunction_slotsHold {id : NodeId} {wrapper : Func NodeId} (name : String) (h : Sound e K) (hf : SlotsHold e)
    (ho : e.node.func? = some original) (hp : e.store.Planted s [id]) (hid : s.Fits .expression id)
    (hw : s.get id = .arrowFunctionExpression wrapper) :
    SlotsHold (({ e with store := s } : Editor).wrapFunction e.current original wrapper name) := by
  have hroot : SlotsHold { e with store := s } := h.fits_grown hf hp.toExtends
  obtain ⟨hpend, -⟩ := Pending.planted h h.current hp
  have hget : s.get e.current = e.node := hp.get _ (h.inside _ h.current)
  have hs : s.Closed := hpend.sound.arena
  have hcur : e.current.index < s.size := hpend.sound.inside _ hpend.sound.current
  obtain ⟨b, hb, hplaces, hplaces'⟩ := places_of_func (n := s.get e.current) (hget ▸ ho)
  obtain ⟨held₁, hext₁⟩ := (allocInner_spec s original name).grown
  obtain ⟨inner, s₁, hs₁⟩ : ∃ inner s₁, allocInner s original name = (inner, s₁) := ⟨_, _, rfl⟩
  obtain ⟨held₂, hext₂⟩ := (allocOuter_spec s₁ inner wrapper.body).grown
  obtain ⟨body, s₂, hs₂⟩ : ∃ body s₂, allocOuter s₁ inner wrapper.body = (body, s₂) := ⟨_, _, rfl⟩
  simp only [hs₁] at hext₁
  simp only [hs₂] at hext₂
  have hext := hext₁.trans hext₂
  have hget₂ : s₂.get e.current = s.get e.current := hext.get _ hcur
  simp only [SlotsHold, wrapFunction_eq, hs₁, hs₂]
  refine (hpend.sound.fits_grown hroot hext).write (hcur.trans_le hext.size) fun τ hτ => ?_
  rw [hext.root] at hτ
  replace hτ : Below s.slots (s.root, .program) (e.current, τ) := (Store.below_slots_agree fun y hy =>
    hext.get y (hpend.sound.inside _ (hpend.sound.forest.below_mem hpend.sound.root hy))).1 hτ
  rw [hget₂]
  refine ⟨(allows_withFunc (hget ▸ ho : (s.get e.current).func? = some original) (by rfl) τ).trans (hroot _ hτ), ?_⟩
  -- what the function held and what the wrapper held is ready
  have hold (p : NodeId × Slot) (hmem : p ∈ Node.funcPlaces b original) : s.Ready e.current p.2 p.1 := by
    refine hpend.sound.kid_ready hroot hτ hpend.sound.current ?_
    rwa [Store.slots, hplaces]
  have hcode (p : NodeId × Slot) (hmem : p ∈ Node.funcPlaces .arrowBody wrapper) : s.Ready e.current p.2 p.1 := by
    refine (hpend.ready List.mem_cons_self hid).kid hs ?_
    rwa [Store.slots, hw]
  have hbody : s.Ready e.current .arrowBody original.body := by
    have hr := hold (original.body, b) (by simp [Node.funcPlaces])
    rcases hb with rfl | rfl
    · exact ⟨hr.inside, hr.above, hr.fits.ofBlock⟩
    · exact hr
  obtain ⟨hg₁, hinner⟩ := allocInner_ready name hs hcur (fun c hc => hold (c, .element) (by simp [Node.funcPlaces, hc])) hbody
  simp only [hs₁] at hg₁ hinner
  obtain ⟨hg₂, houter⟩ := allocOuter_ready hg₁.closed hg₁.inside hinner
    (hg₁.ready _ _ (hcode (wrapper.body, .arrowBody) (by simp [Node.funcPlaces])))
  simp only [hs₂] at hg₂ houter
  have hready := (hg₁.trans hg₂).ready
  have hnew : s₂.Ready e.current b body := by
    rcases hb with rfl | rfl
    · exact houter
    · exact ⟨houter.inside, houter.above, houter.fits.ofBlock⟩
  rintro ⟨c, υ⟩ hmem
  simp only [hplaces', Node.funcPlaces, List.mem_append, Node.mem_placed, List.mem_singleton, Prod.mk.injEq] at hmem
  rcases hmem with (⟨hc, rfl⟩ | ⟨hc, rfl⟩) | ⟨rfl, rfl⟩
  · exact hready _ _ (hold (c, .name) (by simp [Node.funcPlaces, hc]))
  · exact hready _ _ (hcode (c, .element) (by simp [Node.funcPlaces, List.mem_of_mem_tail hc]))
  · exact hnew

theorem wrap_slotsHold (h : Sound e K) (hf : SlotsHold e) (he : e.wrap code = .ok e') : SlotsHold e' := by
  obtain ⟨original, id, s, wrapper, name, ho, hread, hw, rfl⟩ := wrap_ok he
  exact wrapFunction_slotsHold name h hf ho (insertExpression_planted hread) (insertExpression_fits hread) hw

end Wrap

end Editor
end Graft
