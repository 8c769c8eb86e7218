import Graft.Proofs.Edit.InPlace
import Graft.Proofs.Edit.Merge
/-!
# Moves, inserts and changes

Each operation that succeeds on a sound editor gives a sound editor that knows all it knew, and is `Faithful`.
-/

namespace Graft
namespace Editor

variable {e e' : Editor} {B K K' : Set NodeId} {w : NodeId} {ls rest : List NodeId} {code : String}

/-- The outcome of an operation on a sound editor with known nodes `K`. -/
def Kept (e e' : Editor) (K : Set NodeId) : Prop := (∃ K', K ⊆ K' ∧ Sound e' K') ∧ Faithful e e' K

theorem Kept.of_evolved (h : Pending e' K K' w ls) (hev : Evolved e e' K K K') : Kept e e' K :=
  ⟨⟨K', h.base, h.sound⟩, hev.faithful h.sound⟩

theorem Kept.of_merged {members : List NodeId} {e₁ : Editor} {K₁ : Set NodeId} (hev : Evolved e e₁ K K K₁)
    (h : Pending e' K K' w ls ∧ Merged e₁ e' K K₁ K' members ls) : Kept e e' K :=
  .of_evolved h.1 (hev.trans h.2.evolved)

/-! ## Links only -/

/-- New links from known nodes to their holders. -/
theorem Kept.of_links (h : Sound e K) {ps : Parents} {x : NodeId} (hx : x ∈ K)
    (hl : ∀ c p, ps.get? c = some p → e.parents.get? c = some p ∨ (p ∈ K ∧ c ∈ e.store.children p)) :
    Kept e { e with parents := ps, current := x } K := by
  refine ⟨⟨K, subset_rfl, h.arena, h.inside, h.forest, h.root, h.top, fun c p hc => ?_, ?_, hx⟩, rfl,
    fun _ _ hb => hb, fun p hp c hc q hq => ?_⟩
  · rcases hl c p hc with hc | ⟨hp, hc⟩
    · exact h.links c p hc
    · exact ⟨h.forest.closed p hp c hc, hp⟩
  · cases hr : ps.get? e.store.root with
    | none => rfl
    | some p =>
      rcases hl _ p hr with hc | ⟨-, hc⟩
      · simp [h.unlinked] at hc
      · exact absurd hc (h.top p)
  · have hK : p ∈ K := h.forest.below_mem h.root hp
    rcases hl c q hq with hq | ⟨hqK, hcq⟩
    · exact .inr ⟨hK, hc, hq⟩
    · exact .inl (h.forest.holder q hqK p hK c hcq hc)

theorem moveTo_kept (h : Sound e K) {x : NodeId} (hx : x ∈ K) : Kept e (e.moveTo x) K :=
  .of_links h hx fun _ _ hc => .inl hc

theorem enter_kept (h : Sound e K) {child : NodeId} (hc : child ∈ e.store.children e.current) :
    Kept e (e.enter child) K := by
  refine .of_links h (h.forest.closed _ h.current child hc) fun c p hl => ?_
  rw [Parents.get?_link] at hl
  split at hl
  next heq =>
    cases hl
    exact .inr ⟨h.current, heq ▸ hc⟩
  next => exact .inl hl

theorem mem_children_of_field? {n : Node NodeId} {field : String} {f : Field NodeId} (h : n.field? field = some f)
    {c : NodeId} (hc : c ∈ f.children) : c ∈ n.children := by
  unfold Node.field? at h
  unfold Node.children
  refine List.mem_flatMap.2 ⟨(field, f), ?_, hc⟩
  obtain ⟨l₁, l₂, hl, -⟩ := List.lookup_eq_some_iff.1 h
  simp [hl]

theorem gotoChild_kept (h : Sound e K) {field : String} (he : e.gotoChild field = .ok e') : Kept e e' K := by
  unfold gotoChild at he
  split at he
  next child hf =>
    cases he
    exact enter_kept h (mem_children_of_field? hf (by simp))
  all_goals simp [obstacle] at he

theorem gotoElement_kept (h : Sound e K) {field : String} {index : Nat} (he : e.gotoElement field index = .ok e') :
    Kept e e' K := by
  have element {c : NodeId} (hc : c ∈ e.store.children e.current) (he : (.ok (e.enter c) : Result) = .ok e') :
      Kept e e' K := by
    cases he
    exact enter_kept h hc
  unfold gotoElement at he
  split at he
  next ids hf =>
    dsimp only at he
    split at he
    next c hc => exact element (mem_children_of_field? hf (List.mem_of_getElem? hc)) he
    next => simp [obstacle] at he
  next slots hf =>
    dsimp only at he
    split at he
    next c hc =>
      obtain ⟨slot, hs, hslot⟩ := Option.bind_eq_some_iff.1 hc
      have hmem : some c ∈ slots := (show slot = some c from hslot) ▸ List.mem_of_getElem? hs
      exact element (mem_children_of_field? hf (by simpa using hmem)) he
    next => simp [obstacle] at he
  all_goals simp [obstacle] at he

theorem gotoParent_kept (h : Sound e K) (he : e.gotoParent = .ok e') : Kept e e' K := by
  unfold gotoParent at he
  split at he
  next p hp =>
    cases he
    exact moveTo_kept h (h.links _ p hp).2
  next => simp [obstacle] at he

/-- What holds of the nodes on the stack and goes down to children holds of all that a walk finds. -/
theorem walk_mem {s : Store} {P : NodeId → Prop} (down : ∀ p, P p → ∀ c ∈ s.children p, P c)
    (accepts : Parents → NodeId → Bool) (fuel : Nat) {stack found : List NodeId} (ps : Parents)
    (hs : ∀ x ∈ stack, P x) (hf : ∀ x ∈ found, P x) : ∀ x ∈ (s.walk accepts fuel stack ps found).1, P x := by
  induction fuel generalizing stack ps found with
  | zero => simpa [Store.walk] using hf
  | succ fuel ih =>
    cases stack with
    | nil => simpa [Store.walk] using hf
    | cons id stack =>
      have hid : P id := hs id List.mem_cons_self
      refine ih _ (fun x hx => ?_) ?_
      · exact (List.mem_append.1 hx).elim (down id hid x) fun hx => hs x (List.mem_cons_of_mem _ hx)
      · split
        · simpa [hid] using hf
        · exact hf

/-- Every link that a walk over known nodes makes is from a node to its holder. -/
theorem walk_links (h : Sound e K) (accepts : Parents → NodeId → Bool) (fuel : Nat) {stack found : List NodeId}
    (ps : Parents) (hs : ∀ x ∈ stack, x ∈ K) {c p : NodeId}
    (hc : (e.store.walk accepts fuel stack ps found).2.get? c = some p) :
    ps.get? c = some p ∨ (p ∈ K ∧ c ∈ e.store.children p) := by
  induction fuel generalizing stack ps found with
  | zero => exact .inl (by simpa [Store.walk] using hc)
  | succ fuel ih =>
    cases stack with
    | nil => exact .inl (by simpa [Store.walk] using hc)
    | cons id stack =>
      have hid : id ∈ K := hs id List.mem_cons_self
      have hs' : ∀ x ∈ e.store.children id ++ stack, x ∈ K := fun x hx =>
        (List.mem_append.1 hx).elim (h.forest.closed id hid x) fun hx => hs x (List.mem_cons_of_mem _ hx)
      rcases ih (ps.linkAll (e.store.children id) id) hs' hc with hl | hl
      · rw [Parents.get?_linkAll] at hl
        split at hl
        next hmem =>
          cases hl
          exact .inr ⟨hid, hmem⟩
        next => exact .inl hl
      · exact .inr hl

/-- A walk records a parent of everything that it finds. -/
theorem walk_recorded {s : Store} (accepts : Parents → NodeId → Bool) (fuel : Nat) {stack found : List NodeId}
    (ps : Parents) (hs : ∀ x ∈ stack, (ps.get? x).isSome = true) (hf : ∀ x ∈ found, (ps.get? x).isSome = true) :
    ∀ x ∈ (s.walk accepts fuel stack ps found).1, ((s.walk accepts fuel stack ps found).2.get? x).isSome = true := by
  induction fuel generalizing stack ps found with
  | zero => simpa [Store.walk] using hf
  | succ fuel ih =>
    cases stack with
    | nil => simpa [Store.walk] using hf
    | cons id stack =>
      have stays {x : NodeId} (hx : (ps.get? x).isSome = true) :
          ((ps.linkAll (s.children id) id).get? x).isSome = true := by
        rw [Parents.get?_linkAll]
        split
        · rfl
        · exact hx
      refine ih _ (fun x hx => ?_) fun x hx => ?_
      · rcases List.mem_append.1 hx with hx | hx
        · simp [Parents.get?_linkAll, hx]
        · exact stays (hs x (List.mem_cons_of_mem _ hx))
      · split at hx
        · rcases List.mem_cons.1 hx with rfl | hx
          · exact stays (hs x List.mem_cons_self)
          · exact stays (hf x hx)
        · exact stays (hf x hx)

theorem search_recorded {s : Store} (ps : Parents) (node : NodeId) (accepts : Parents → NodeId → Bool) :
    ∀ x ∈ (s.search ps node accepts).1, ((s.search ps node accepts).2.get? x).isSome = true :=
  walk_recorded accepts _ _ (fun x hx => by simp [Parents.get?_linkAll, hx]) (by simp)

theorem search_below {s : Store} (ps : Parents) (node : NodeId) (accepts : Parents → NodeId → Bool) :
    ∀ x ∈ (s.search ps node accepts).1, Below s.children node x :=
  walk_mem (fun _ hp _ hc => hp.tail hc) accepts _ _ (fun _ hx => .kid hx) (by simp)

theorem search_kept (h : Sound e K) (accepts : Parents → NodeId → Bool) :
    (∀ x ∈ (e.store.search e.parents e.current accepts).1, x ∈ K) ∧
      Kept e { e with parents := (e.store.search e.parents e.current accepts).2 } K := by
  have hkids : ∀ x ∈ e.store.children e.current, x ∈ K := h.forest.closed _ h.current
  refine ⟨fun x hx => h.forest.below_mem h.current (search_below _ _ _ x hx), .of_links h h.current fun c p hc => ?_⟩
  rcases walk_links h accepts _ _ hkids hc with hc | hc
  · rw [Parents.get?_linkAll] at hc
    split at hc
    next hmem =>
      cases hc
      exact .inr ⟨h.current, hmem⟩
    next => exact .inl hc
  · exact .inr hc

/-! ## Fragments -/

theorem insertExpression_planted {id : NodeId} {s : Store} (h : e.insertExpression code = .ok (id, s)) :
    e.store.Planted s [id] := by
  unfold insertExpression at h
  split at h
  next => cases h
  next t _ =>
    have hp := Store.insert_planted t e.store
    rwa [Except.ok.inj h] at hp

theorem insertStatements_planted {ids : List NodeId} {s : Store} (h : e.insertStatements code = .ok (ids, s)) :
    e.store.Planted s ids := by
  have all (body : List Tree) (h : Except.ok (e.store.insertAll body) = (.ok (ids, s) : Except EditError _)) :
      e.store.Planted s ids := by
    have hp := Store.insertAll_planted body e.store
    rwa [Except.ok.inj h] at hp
  unfold insertStatements at h
  split at h
  next => cases h
  next body _ => exact all body h
  next body _ _ => exact all body h

/-! ## Inserting -/

theorem bind_eq_ok {ε α β : Type} {x : Except ε α} {f : α → Except ε β} {b : β} (h : x >>= f = .ok b) :
    ∃ a, x = .ok a ∧ f a = .ok b := by
  cases x with
  | error => cases h
  | ok a => exact ⟨a, rfl, h⟩

theorem ownList_known (h : Sound e K) {owner : NodeId} (ho : e.ownList = .ok owner) : owner ∈ K := by
  unfold ownList at ho
  split at ho
  next =>
    cases ho
    exact h.current
  next =>
    cases ho
    exact h.current
  next =>
    split at ho
    next f hf =>
      split at ho
      next =>
        cases ho
        refine h.forest.closed _ h.current _ ?_
        rw [Store.children, ← node, Node.children_of_func hf]
        simp
      next => simp [obstacle] at ho
    next => simp [obstacle] at ho

theorem placeInParent_known (h : Sound e K) {owner : NodeId} {index : Nat} (ho : e.placeInParent = .ok (owner, index)) :
    owner ∈ K := by
  unfold placeInParent at ho
  split at ho
  next => simp [obstacle] at ho
  next p hp =>
    split at ho
    next => simp [obstacle] at ho
    next =>
      split at ho
      next =>
        cases ho
        exact (h.links _ _ hp).2
      next => simp [obstacle] at ho

/-- The owner of an insertion point is known. -/
theorem insertionPoint_known (h : Sound e K) {position : InsertPosition} {owner : NodeId} {index : Nat}
    (hi : e.insertionPoint position = .ok (owner, index)) : owner ∈ K := by
  unfold insertionPoint at hi
  split at hi
  · obtain ⟨o, ho, heq⟩ := map_eq_ok hi
    cases heq
    exact ownList_known h ho
  · obtain ⟨o, ho, heq⟩ := map_eq_ok hi
    cases heq
    exact ownList_known h ho
  · exact placeInParent_known h hi
  · obtain ⟨⟨o, i⟩, ho, heq⟩ := map_eq_ok hi
    cases heq
    exact placeInParent_known h ho

/-- Statements between others are the same nodes as statements after them. -/
theorem perm_spliced (list statements : List NodeId) (index : Nat) :
    (list.take index ++ statements ++ list.drop index).Perm (list ++ statements) := by
  rw [List.append_assoc]
  refine (List.Perm.append_left _ List.perm_append_comm).trans ?_
  rw [← List.append_assoc, List.take_append_drop]

theorem splice_kept {e₁ : Editor} {owner : NodeId} {index : Nat} {statements list : List NodeId}
    (hev : Evolved e e₁ K K K') (h : Pending e₁ K K' owner statements)
    (hl : (e₁.store.get owner).statements? = some list) : Kept e (e₁.splice owner index statements) K := by
  obtain ⟨others, hkids, hnew⟩ := Node.children_withStatements hl (list.take index ++ statements ++ list.drop index)
  have hown : e₁.store.children owner = others ++ list := hkids
  have hperm : ((e₁.store.get owner).withStatements (list.take index ++ statements ++ list.drop index)).children.Perm
      (e₁.store.children owner ++ statements) := by
    rw [hnew, hown, List.append_assoc others]
    exact (perm_spliced list statements index).append_left others
  have hspl : e₁.splice owner index statements = Pending.attached e₁ owner
      ((e₁.store.get owner).withStatements (list.take index ++ statements ++ list.drop index)) statements := by
    simp [splice, hl, Pending.attached]
  have hn : (e₁.store.children owner ++ statements).Nodup := by
    refine List.nodup_append'.2 ⟨h.spare.forest.nodup owner h.spare.mem, h.spare.nodup, fun x hx hx' => ?_⟩
    exact (h.spare.loose x hx').2 owner h.spare.mem hx
  have h' : Pending e₁ K K' owner (statements ++ []) := by rwa [List.append_nil]
  obtain ⟨hp, hev'⟩ := h'.attach statements (hperm.nodup_iff.2 hn)
    (fun c hc => List.mem_append.1 (hperm.mem_iff.1 hc)) fun c hc => hperm.mem_iff.2 (List.mem_append_right _ hc)
  rw [hspl]
  exact .of_evolved hp (hev.trans hev')

/-- What an insertion that succeeds comes to. -/
theorem insert_ok {position : InsertPosition} (he : e.insert position code = .ok e') : ∃ owner index statements s,
    e.insertionPoint position = .ok (owner, index) ∧ e.insertStatements code = .ok (statements, s) ∧
      e' = ({ e with store := s } : Editor).splice owner index statements := by
  obtain ⟨⟨owner, index⟩, hpoint, he⟩ := bind_eq_ok he
  obtain ⟨⟨statements, s⟩, hread, he⟩ := bind_eq_ok he
  exact ⟨owner, index, statements, s, hpoint, hread, (Except.ok.inj he).symm⟩

theorem insert_kept (h : Sound e K) {position : InsertPosition} (he : e.insert position code = .ok e') :
    Kept e e' K := by
  obtain ⟨owner, index, statements, s, hpoint, hread, rfl⟩ := insert_ok he
  obtain ⟨list, hlist⟩ := insertionPoint_statements hpoint
  have howner := insertionPoint_known h hpoint
  have hplanted := insertStatements_planted hread
  obtain ⟨hp, hev⟩ := Pending.planted h howner hplanted
  exact splice_kept hev hp (hplanted.get owner (h.inside owner howner) ▸ hlist)

/-! ## Changing -/

theorem updateTarget?_known (h : Sound e K) {target : NodeId} (ht : e.updateTarget? = some target) :
    target ∈ K ∧ e.store.isObject target = true := by
  unfold updateTarget? at ht
  split at ht
  next hn =>
    cases ht
    exact ⟨h.current, isObject_iff.2 ⟨_, hn⟩⟩
  next hn =>
    split at ht
    next ho =>
      cases ht
      refine ⟨h.forest.closed _ h.current _ ?_, ho⟩
      rw [Store.children, ← node, hn]
      simp
    next => cases ht
  next => cases ht

/-- What an update that succeeds comes to. -/
theorem update_ok {value : ChangeValue} (he : e.update value = .ok e') : ∃ target source s,
    e.updateTarget? = some target ∧ e.insertExpression value.source = .ok (source, s) ∧ s.isObject source = true ∧
      e' = ({ e with store := s } : Editor).mergeObject target source := by
  unfold update at he
  cases ht : e.updateTarget? with
  | none => simp [ht, obstacle] at he
  | some target =>
    simp only [ht] at he
    obtain ⟨⟨source, s⟩, hread, he⟩ := bind_eq_ok he
    dsimp only at he
    split at he
    next hobject =>
      cases he
      exact ⟨target, source, s, rfl, hread, hobject, rfl⟩
    next => simp [obstacle] at he

theorem update_kept (h : Sound e K) {value : ChangeValue} (he : e.update value = .ok e') : Kept e e' K := by
  obtain ⟨target, source, s, ht, hread, hsource, rfl⟩ := update_ok he
  obtain ⟨hK, hobj⟩ := updateTarget?_known h ht
  have hplanted := insertExpression_planted hread
  obtain ⟨hp, hev⟩ := Pending.planted h hK hplanted
  obtain ⟨K₁, hp₁, hm₁⟩ := parts_pending hp (List.Sublist.refl _)
  rw [← members_eq hsource] at hp₁ hm₁
  have hot : s.isObject target = true := by
    rwa [Store.isObject, hplanted.get target (h.inside target hK)]
  obtain ⟨K₂, hm₂⟩ := mergeMembers_merged (s.size + 1) hp₁ hot
  exact .of_merged (hev.trans hm₁.evolved) hm₂

/-- The node at the cursor is overwritten with one that holds pending nodes. -/
theorem overwrite_kept {e₁ : Editor} {n : Node NodeId} (hev : Evolved e e₁ K K K')
    (h : Pending e₁ K K' e₁.current n.children) : Kept e (e₁.overwrite n) K := by
  have hw : e₁.current.index < e₁.store.size := h.sound.inside _ h.sound.current
  have hover : e₁.overwrite n = Pending.attached e₁ e₁.current n n.children := by
    simp [overwrite, Pending.attached, Parents.linkChildren, Store.children_set hw]
  have h' : Pending e₁ K K' e₁.current (n.children ++ []) := by rwa [List.append_nil]
  obtain ⟨hp, hev'⟩ := h'.attach n.children h.spare.nodup (fun c hc => .inr hc) fun _ hc => hc
  rw [hover]
  exact .of_evolved hp (hev.trans hev')

theorem set_kept (h : Sound e K) {value : ChangeValue} (he : e.set value = .ok e') : Kept e e' K := by
  have plant {new : NodeId} {s : Store} (hc : e.insertExpression value.source = .ok (new, s)) :=
    Pending.planted h h.current (insertExpression_planted hc)
  -- a value that is set takes what the new node holds, and that node is left out
  have copied {new : NodeId} {s : Store} (hc : e.insertExpression value.source = .ok (new, s)) :
      Kept e (({ e with store := s } : Editor).overwrite (s.get new)) K := by
    obtain ⟨hp, hev⟩ := plant hc
    obtain ⟨hp', hev'⟩ := hp.opened
    exact overwrite_kept (hev.trans hev') (by simpa [Store.children] using hp')
  unfold set at he
  cases hc : e.insertExpression value.source with
  | error => split at he <;> simp [hc, bind, Except.bind, obstacle] at he
  | ok planted =>
    obtain ⟨new, s⟩ := planted
    obtain ⟨hp, hev⟩ := plant hc
    have hget : s.get e.current = e.node := (insertExpression_planted hc).get _ (h.inside _ h.current)
    simp only [hc, bind, Except.bind, pure, Except.pure] at he
    split at he
    next id init hn =>
      cases he
      have hkids : s.children e.current = id :: init.toList := by rw [Store.children, hget, hn]; simp
      have hne : id ≠ new := by
        rintro rfl
        exact (hp.spare.loose id List.mem_cons_self).2 e.current hp.spare.mem (by simp [hkids])
      have hp₀ : Pending { e with store := s } K (K ∪ e.store.added s) e.current ([new] ++ []) := hp
      obtain ⟨hp', hev'⟩ := hp₀.attach (n := .variableDeclarator id (some new)) [new] (by simpa using hne) (by simp [hkids]) (by simp)
      exact .of_evolved hp' (hev.trans hev')
    next hn =>
      cases he
      exact .of_merged hev (setPropertyValue_merged [] hp (by rw [Store.propertyValue?, hget, hn]))
    next hn =>
      split at he
      next =>
        cases he
        exact copied hc
      next => simp [obstacle] at he
    next hn =>
      cases he
      exact copied hc
    next => simp [obstacle] at he

theorem change_kept (h : Sound e K) {method : ChangeMethod} {value : ChangeValue}
    (he : e.change method value = .ok e') : Kept e e' K := by
  cases method with
  | update => exact update_kept h he
  | set => exact set_kept h he

end Editor
end Graft
