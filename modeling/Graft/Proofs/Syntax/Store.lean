import Graft.Proofs.Syntax.Children
import Graft.Proofs.Syntax.Forest
/-!
# Stores

What writing, allocating and inserting do to the nodes of a store. New slots come after the old ones: `Store.Extends`
says which old nodes they hold, and `Store.Planted` that they form a forest of their own. The last section says what
linking does to a map of parents.
-/

namespace Graft
namespace Store

variable {s s' s'' : Store} {id : NodeId} {n : Node NodeId} {held held' tops tops' : List NodeId} {t : Tree}

/-! ## Slots -/

theorem get_of_size_le (h : s.size ≤ id.index) : s.get id = .emptyStatement := by
  simp [get, size] at h ⊢
  simp [h]

theorem children_of_size_le (h : s.size ≤ id.index) : s.children id = [] := by
  rw [children, get_of_size_le h]
  simp

@[simp] theorem size_set : (s.set id n).size = s.size := by simp [size, set]

@[simp] theorem root_set : (s.set id n).root = s.root := rfl

theorem get_set_self (h : id.index < s.size) : (s.set id n).get id = n := by
  simp [get, set, size] at h ⊢
  simp [h]

theorem get_set_of_ne {x : NodeId} (h : x ≠ id) : (s.set id n).get x = s.get x := by
  have hne : id.index ≠ x.index := fun e => h (by cases x; cases id; simp_all)
  simp [get, set, Array.getD_eq_getD_getElem?, Array.getElem?_setIfInBounds_ne hne]

theorem children_set (h : id.index < s.size) : (s.set id n).children = Function.update s.children id n.children := by
  funext x
  by_cases hx : x = id
  · rw [hx, Function.update_self, children, get_set_self h]
  · rw [Function.update_of_ne hx, children, get_set_of_ne hx, children]

@[simp] theorem size_alloc : (s.alloc n).2.size = s.size + 1 := by simp [size, alloc]

theorem index_alloc : (s.alloc n).1.index = s.size := rfl

theorem get_alloc_self : (s.alloc n).2.get (s.alloc n).1 = n := by simp [get, alloc]

theorem get_alloc_of_lt {x : NodeId} (h : x.index < s.size) : (s.alloc n).2.get x = s.get x := by
  simp [get, alloc, size, Array.getD_eq_getD_getElem?, Array.getElem?_push] at h ⊢
  simp [Nat.ne_of_lt h]

theorem children_alloc : (s.alloc n).2.children = Function.update s.children (s.alloc n).1 n.children := by
  funext x
  by_cases hx : x = (s.alloc n).1
  · rw [hx, Function.update_self, children, get_alloc_self]
  · rw [Function.update_of_ne hx]
    rcases Nat.lt_or_ge x.index s.size with hlt | hge
    · rw [children, get_alloc_of_lt hlt, children]
    · have hne : x.index ≠ s.size := fun e => hx (by cases x; cases e; rfl)
      rw [children_of_size_le hge, children_of_size_le]
      rw [size_alloc]
      omega

/-! ## More slots -/

/-- The nodes that `s'` has more than `s`. -/
def added (s s' : Store) : Set NodeId := {x | s.size ≤ x.index ∧ x.index < s'.size}

theorem mem_added {x : NodeId} : x ∈ added s s' ↔ s.size ≤ x.index ∧ x.index < s'.size := Iff.rfl

/-- `s'` is `s` with more slots, and these hold only each other and nodes of `held`. -/
structure Extends (s s' : Store) (held : List NodeId) : Prop where
  root : s'.root = s.root
  size : s.size ≤ s'.size
  get : ∀ x, x.index < s.size → s'.get x = s.get x
  holds : ∀ p, s.size ≤ p.index → ∀ c ∈ s'.children p, c ∈ held ∨ c ∈ added s s'

namespace Extends

theorem refl (s : Store) : Extends s s [] :=
  ⟨rfl, Nat.le_refl _, fun _ _ => rfl, fun p hp c hc => by simp [children_of_size_le hp] at hc⟩

theorem children (h : Extends s s' held) {x : NodeId} (hx : x.index < s.size) : s'.children x = s.children x := by
  rw [Store.children, h.get x hx, Store.children]

theorem trans (h : Extends s s' held) (h' : Extends s' s'' held') : Extends s s'' (held ++ held') where
  root := h'.root.trans h.root
  size := h.size.trans h'.size
  get x hx := (h'.get x (hx.trans_le h.size)).trans (h.get x hx)
  holds p hp c hc := by
    rcases Nat.lt_or_ge p.index s'.size with hlt | hge
    · rw [h'.children hlt] at hc
      refine (h.holds p hp c hc).imp (List.mem_append_left _) fun hc => ⟨hc.1, hc.2.trans_le h'.size⟩
    · rcases h'.holds p hge c hc with hc | hc
      · exact .inl (List.mem_append_right _ hc)
      · exact .inr ⟨h.size.trans hc.1, hc.2⟩

theorem alloc (s : Store) (n : Node NodeId) : Extends s (s.alloc n).2 n.children where
  root := rfl
  size := by simp
  get x hx := get_alloc_of_lt hx
  holds p hp c hc := by
    by_cases hpi : p = (s.alloc n).1
    · rw [children_alloc, hpi, Function.update_self] at hc
      exact .inl hc
    · rw [children_alloc, Function.update_of_ne hpi, children_of_size_le hp] at hc
      simp at hc

/-- Paths stay, also those that do not go through `w`. -/
theorem below_emptied (h : Extends s s' held) {w p x : NodeId} (hb : Below (Function.update s.children w []) p x) :
    Below (Function.update s'.children w []) p x := by
  refine hb.mono fun q c hc => ?_
  by_cases hq : q = w
  · simp [hq] at hc
  · rw [Function.update_of_ne hq] at hc ⊢
    rwa [h.children]
    by_contra hge
    simp [children_of_size_le (Nat.le_of_not_lt hge)] at hc

/-- Child numbers stay inside the arena. -/
theorem inside (h : Extends s s' held) (hs : ∀ p, ∀ c ∈ s.children p, c.index < s.size)
    (hh : ∀ c ∈ held, c.index < s'.size) (p : NodeId) : ∀ c ∈ s'.children p, c.index < s'.size := by
  intro c hc
  rcases Nat.lt_or_ge p.index s.size with hlt | hge
  · exact (hs p c (h.children hlt ▸ hc)).trans_le h.size
  · exact (h.holds p hge c hc).elim (hh c) And.right

end Extends

/-! ## Trees in new slots -/

/-- The new slots form a forest with these tops. -/
structure Planted (s s' : Store) (tops : List NodeId) : Prop extends Extends s s' [] where
  tops : Tops s'.children (added s s') tops

namespace Planted

theorem refl (s : Store) : Planted s s [] := by
  have none {p : NodeId} (hp : p ∈ added s s) : False := Nat.not_lt.2 hp.1 hp.2
  exact ⟨.refl s, .of_forest ⟨fun _ hp => (none hp).elim, fun _ hp => (none hp).elim, fun _ hp => (none hp).elim,
    fun _ hp => (none hp).elim⟩⟩

theorem trans (h : Planted s s' tops) (h' : Planted s' s'' tops') : Planted s s'' (tops ++ tops') := by
  refine ⟨h.toExtends.trans h'.toExtends, ?_⟩
  have hunion : added s s'' = added s s' ∪ added s' s'' := by
    ext x
    have := h.size
    have := h'.size
    simp only [Set.mem_union, mem_added]
    omega
  rw [hunion]
  refine (h.tops.congr fun x hx => h'.children hx.2).join h'.tops fun x hx hx' => ?_
  exact absurd hx'.2 (Nat.not_lt.2 hx.1)

theorem perm (h : Planted s s' tops) (hp : tops'.Perm tops) : Planted s s' tops' :=
  ⟨h.toExtends, h.tops.take hp.subperm⟩

/-- A node over all tops. -/
theorem alloc (h : Planted s s' n.children) : Planted s (s'.alloc n).2 [(s'.alloc n).1] := by
  have hnew : added s (s'.alloc n).2 = Insert.insert (s'.alloc n).1 (added s s') := by
    ext x
    have := h.size
    have hx : x = (s'.alloc n).1 ↔ x.index = s'.size := by cases x; simp [Store.alloc, size]
    simp only [Set.mem_insert_iff, mem_added, hx, size_alloc]
    omega
  have htops : Tops s'.children (added s s') (n.children ++ []) := by simpa using h.tops
  have hfresh : (s'.alloc n).1 ∉ added s s' := fun hx => absurd hx.2 (by simp [index_alloc])
  refine ⟨⟨h.root, by rw [size_alloc]; have := h.size; omega, fun x hx => ?_, fun p hp c hc => .inr ?_⟩, ?_⟩
  · rw [get_alloc_of_lt (hx.trans_le h.size), h.get x hx]
  · have hmem : p ∈ added s (s'.alloc n).2 := by
      refine ⟨hp, ?_⟩
      by_contra hge
      simp [children_of_size_le (Nat.le_of_not_lt hge)] at hc
    rw [hnew] at hmem ⊢
    rw [children_alloc] at hc
    exact (htops.alloc hfresh).forest.closed p hmem c hc
  · rw [hnew, children_alloc]
    exact htops.alloc hfresh

end Planted

theorem traverseList_planted {ts : List Tree} (h : ∀ t ∈ ts, ∀ s : Store, Planted s (s.insert t).2 [(s.insert t).1])
    (s : Store) : Planted s (Node.traverseList (Tree.fold insertNode) ts s).2
      (Node.traverseList (Tree.fold insertNode) ts s).1 := by
  induction ts generalizing s with
  | nil => exact .refl s
  | cons t ts ih =>
    exact (h t List.mem_cons_self s).trans (ih (fun u hu => h u (List.mem_cons_of_mem _ hu)) (s.insert t).2)

/-- An inserted tree stands apart in new slots. -/
theorem insert_planted (t : Tree) (s : Store) : Planted s (s.insert t).2 [(s.insert t).1] := by
  induction t using Tree.induct generalizing s with
  | mk n ih =>
    obtain ⟨n', hfold, htr⟩ := Tree.fold_mk insertNode n
    have hchildren := congrFun (Node.children_traverse (Tree.fold insertNode) n) s
    have hlist := traverseList_planted ih s
    rw [← hchildren] at hlist
    have hinsert : s.insert (.mk n) = (n.traverse (Tree.fold insertNode) s).2.alloc (n.traverse (Tree.fold insertNode) s).1 := by
      rw [insert, hfold, insertNode, htr]
      rfl
    rw [hinsert]
    exact hlist.alloc

theorem insertAll_planted (ts : List Tree) (s : Store) : Planted s (s.insertAll ts).2 (s.insertAll ts).1 := by
  induction ts with
  | nil => exact .refl s
  | cons t ts ih =>
    have h := ih.trans (insert_planted t (s.insertAll ts).2)
    exact h.perm (List.perm_append_singleton _ _).symm

end Store

/-! ## Links -/

namespace Parents

@[simp] theorem get?_empty (c : NodeId) : empty.get? c = none := by simp [empty, get?]

theorem get?_link (ps : Parents) (c p x : NodeId) : (ps.link c p).get? x = if x = c then some p else ps.get? x := by
  simp only [link, get?, Std.HashMap.getElem?_insert, beq_iff_eq, @eq_comm _ c x]

theorem get?_linkAll (ps : Parents) (cs : List NodeId) (p x : NodeId) :
    (ps.linkAll cs p).get? x = if x ∈ cs then some p else ps.get? x := by
  induction cs generalizing ps with
  | nil => simp [linkAll]
  | cons c cs ih =>
    rw [show ps.linkAll (c :: cs) p = (ps.link c p).linkAll cs p from rfl, ih, get?_link]
    by_cases hx : x ∈ cs <;> by_cases hc : x = c <;> simp [hx, hc]

theorem link_eq_linkAll (ps : Parents) (c p : NodeId) : ps.link c p = ps.linkAll [c] p := rfl

end Parents
end Graft
