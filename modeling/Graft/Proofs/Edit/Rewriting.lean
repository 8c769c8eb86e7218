import Graft.Proofs.Edit.Contents
/-!
# Rewriting below some nodes

`Store.Rewritten s s' ps` says where `s'` may differ from `s`: at the nodes `ps` and below them. Such changes add up, and a tree that
lies apart from `ps` stays as it is (`Rewritten.tree_apart`). Two nodes lie apart if neither is below the other (`Forest.apart`).
-/

namespace Graft

variable {α : Type} {kids kids' : α → List α} {K : Set α} {ps qs : List α} {p q x w : α}

/-! ## Nodes apart -/

/-- Of two nodes above a third, one is above the other. -/
theorem Forest.comparable (h : Forest kids K) (hp : p ∈ K) (hq : q ∈ K) (hpx : Below kids p x) (hqx : Below kids q x) :
    Below kids p q ∨ Below kids q p := by
  induction hpx with
  | refl => exact .inr hqx
  | @tail y x hpy hyx ih =>
    by_cases hqe : q = x
    · subst hqe
      exact .inl (hpy.tail hyx)
    · exact ih (h.below_holder hq (h.below_mem hp hpy) hyx hqx hqe)

/-- Nothing lies below both. -/
def Apart (kids : α → List α) (p q : α) : Prop := ∀ x, Below kids p x → ¬ Below kids q x

theorem Apart.symm (h : Apart kids p q) : Apart kids q p := fun x hq hp => h x hp hq

theorem Apart.below {p' q' : α} (h : Apart kids p q) (hp : Below kids p p') (hq : Below kids q q') : Apart kids p' q' :=
  fun x hpx hqx => h x (hp.trans hpx) (hq.trans hqx)

theorem Apart.not_below (h : Apart kids p q) : ¬ Below kids p q := fun hb => h q hb (.refl q)

theorem Forest.apart (h : Forest kids K) (hp : p ∈ K) (hq : q ∈ K) (hpq : ¬ Below kids p q) (hqp : ¬ Below kids q p) :
    Apart kids p q :=
  fun _ hpx hqx => (h.comparable hp hq hpx hqx).elim hpq hqp

/-- The nodes that one node holds lie apart. -/
theorem Forest.apart_siblings (h : Forest kids K) (hw : w ∈ K) (hp : p ∈ kids w) (hq : q ∈ kids w) (hne : p ≠ q) :
    Apart kids p q := by
  refine h.apart (h.closed w hw p hp) (h.closed w hw q hq) (fun hb => hne ?_) fun hb => hne ?_
  · exact h.apart_kids hw p hp q hq hb
  · exact (h.apart_kids hw q hq p hp hb).symm

/-- Only a node that nothing holds is above it. -/
theorem Loose.eq_of_below (hF : Forest kids K) (h : Loose kids K p) (hq : q ∈ K) (hb : Below kids q p) : q = p := by
  rcases Relation.ReflTransGen.cases_tail hb with he | ⟨y, hy, hp⟩
  · exact he.symm
  · exact absurd hp (h y (hF.below_mem hq hy))

theorem Tops.apart {ls : List α} (h : Tops kids K ls) (hp : p ∈ ls) (hq : q ∈ ls) (hne : p ≠ q) : Apart kids p q := by
  obtain ⟨hpK, hpL⟩ := h.loose p hp
  obtain ⟨hqK, hqL⟩ := h.loose q hq
  refine h.forest.apart hpK hqK (fun hb => hne ?_) fun hb => hne ?_
  · exact hqL.eq_of_below h.forest hpK hb
  · exact (hpL.eq_of_below h.forest hqK hb).symm

theorem Spare.apart {ls : List α} (h : Spare kids K w ls) (hp : p ∈ ls) : Apart kids p w := by
  obtain ⟨hpK, hpL⟩ := h.loose p hp
  refine h.forest.apart hpK h.mem (h.above p hp) fun hb => h.above p hp ?_
  exact hpL.eq_of_below h.forest h.mem hb ▸ .refl _

/-! ## Below one of several nodes -/

def Reach (kids : α → List α) (ps : List α) (x : α) : Prop := ∃ p ∈ ps, Below kids p x

namespace Reach

theorem of_mem (h : p ∈ ps) : Reach kids ps p := ⟨p, h, .refl p⟩

theorem trans (h : Reach kids ps p) (hx : Below kids p x) : Reach kids ps x := by
  obtain ⟨q, hq, hb⟩ := h
  exact ⟨q, hq, hb.trans hx⟩

theorem lift (h : Reach kids ps x) (hps : ∀ p ∈ ps, Reach kids qs p) : Reach kids qs x := by
  obtain ⟨p, hp, hb⟩ := h
  exact (hps p hp).trans hb

theorem left (h : Reach kids ps x) : Reach kids (ps ++ qs) x := h.lift fun _ hp => of_mem (List.mem_append_left qs hp)

theorem right (h : Reach kids qs x) : Reach kids (ps ++ qs) x := h.lift fun _ hp => of_mem (List.mem_append_right ps hp)

theorem not_of_apart (h : ∀ p ∈ ps, Apart kids p q) (hx : Below kids q x) : ¬ Reach kids ps x := by
  rintro ⟨p, hp, hb⟩
  exact h p hp x hb hx

end Reach

/-! ## Rewriting -/

namespace Store

variable {s s' s'' : Store} {n : Node NodeId} {ps qs : List NodeId} {x w : NodeId}

/-- `s'` differs from `s` at nodes below `ps` only, and what stands there holds nodes from there. -/
structure Rewritten (s s' : Store) (ps : List NodeId) : Prop where
  size : s'.size = s.size
  get : ∀ x, ¬ Reach s.children ps x → s'.get x = s.get x
  closed : ∀ x, Reach s.children ps x → ∀ c ∈ s'.children x, Reach s.children ps c

namespace Rewritten

theorem refl (s : Store) (ps : List NodeId) : Rewritten s s ps := ⟨rfl, fun _ _ => rfl, fun _ hx _ hc => hx.trans (.kid hc)⟩

theorem children (h : Rewritten s s' ps) (hx : ¬ Reach s.children ps x) : s'.children x = s.children x := by
  rw [Store.children, h.get x hx, Store.children]

/-- A path in the changed store leads nowhere that was not below its start or below a changed node. -/
theorem reach (h : Rewritten s s' ps) (hx : Reach s'.children qs x) : Reach s.children (ps ++ qs) x := by
  obtain ⟨q, hq, hb⟩ := hx
  induction hb with
  | refl => exact .of_mem (List.mem_append_right ps hq)
  | @tail y x _ hyx ih =>
    by_cases hy : Reach s.children ps y
    · exact (h.closed y hy x hyx).left
    · rw [h.children hy] at hyx
      exact ih.trans (.kid hyx)

theorem trans (h : Rewritten s s' ps) (h' : Rewritten s' s'' qs) : Rewritten s s'' (ps ++ qs) where
  size := h'.size.trans h.size
  get x hx := by
    rw [h'.get x fun hb => hx (h.reach hb), h.get x fun hb => hx hb.left]
  closed x hx c hc := by
    by_cases hq : Reach s'.children qs x
    · exact h.reach (h'.closed x hq c hc)
    · rw [h'.children hq] at hc
      by_cases hp : Reach s.children ps x
      · exact (h.closed x hp c hc).left
      · rw [h.children hp] at hc
        exact hx.trans (.kid hc)

theorem widen (h : Rewritten s s' ps) (hps : ∀ p ∈ ps, Reach s.children qs p) : Rewritten s s' qs where
  size := h.size
  get x hx := h.get x fun hb => hx (hb.lift hps)
  closed x hx c hc := by
    by_cases hp : Reach s.children ps x
    · exact (h.closed x hp c hc).lift hps
    · rw [h.children hp] at hc
      exact hx.trans (.kid hc)

/-- A write of a node that holds nodes from below `ps`. -/
theorem set (hw : w.index < s.size) (hreach : Reach s.children ps w) (hn : ∀ c ∈ n.children, Reach s.children ps c) :
    Rewritten s (s.set w n) ps where
  size := size_set
  get x hx := get_set_of_ne fun he => hx (he ▸ hreach)
  closed x hx c hc := by
    rw [children_set hw] at hc
    by_cases he : x = w
    · rw [he, Function.update_self] at hc
      exact hn c hc
    · rw [Function.update_of_ne he] at hc
      exact hx.trans (.kid hc)

theorem tree (h : Rewritten s s' ps) (hx : ∀ y, Below s.children x y → ¬ Reach s.children ps y) : s'.tree x = s.tree x :=
  tree_agree h.size fun y hy => h.get y (hx y hy)

theorem tree_apart (h : Rewritten s s' ps) (hx : ∀ p ∈ ps, Apart s.children p x) : s'.tree x = s.tree x :=
  h.tree fun _ hy => Reach.not_of_apart hx hy

end Rewritten

/-- A write leaves the trees alone that the written node is not in. -/
theorem tree_set_aside (hx : ¬ Below s.children x w) : (s.set w n).tree x = s.tree x :=
  tree_agree size_set fun _ hy => get_set_of_ne fun he => hx (he ▸ hy)

end Store
end Graft
