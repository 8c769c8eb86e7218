import Graft.Proofs.Source.Readback
import Graft.Proofs.Syntax.Mapping
/-!
# Trees below slots

In a forest of nodes, `Store.tree` opens one layer at a time (`Store.tree_eq`), depends on the nodes below only (`Store.tree_agree`),
and is the tree that was inserted (`Store.tree_insert`).
-/

namespace Graft
namespace Store

variable {s s' s'' : Store} {K : Set NodeId} {x : NodeId} {t : Tree}

/-! ## One layer -/

/-- The tree below a node has the node on top, and below it the trees below its children. -/
theorem tree_eq (hF : Forest s.children K) (hin : ∀ x ∈ K, x.index < s.size) (hx : x ∈ K) :
    s.tree x = .mk ((s.get x).map s.tree) := by
  have hsome := tree?_isSome hF hin hx
  rw [tree?, treeWithin_succ, Option.isSome_map] at hsome
  have hkids : ∀ c ∈ (s.get x).children, s.treeWithin s.size c = some (s.tree c) := by
    intro c hc
    have hc := Node.isSome_of_traverse hsome c hc
    obtain ⟨t, ht⟩ := Option.isSome_iff_exists.1 hc
    rw [tree, tree?, treeWithin_deeper hc, ht]
    rfl
  rw [tree, tree?, treeWithin_succ, Node.traverse_eq_map hkids]
  rfl

/-- Two stores of one size with the same nodes below a slot have the same tree there. -/
theorem tree_agree (hsize : s'.size = s.size) (agree : ∀ y, Below s.children x y → s'.get y = s.get y) :
    s'.tree x = s.tree x := by
  have within (depth : Nat) : ∀ y, Below s.children x y → s'.treeWithin depth y = s.treeWithin depth y := by
    induction depth with
    | zero => exact fun _ _ => rfl
    | succ depth ih =>
      intro y hy
      rw [treeWithin_succ, treeWithin_succ, agree y hy, Node.traverse_congr fun c hc => ih c (hy.trans (.kid hc))]
  rw [tree, tree?, hsize, within _ x (.refl x), tree, tree?]

/-! ## Inserted trees -/

/-- The slot of an inserted tree, beside the tree. -/
def insertBeside (t : Tree) : StateM Store (Tree × NodeId) := (t, ·) <$> Tree.fold insertNode t

theorem traverseList_beside (ts : List Tree) (s : Store) : Keeps s (Node.traverseList insertBeside ts s).2 ∧
    ∀ p ∈ (Node.traverseList insertBeside ts s).1, p.1 ∈ ts ∧
      ∃ s₀ : Store, p.2 = (s₀.insert p.1).1 ∧ Keeps (s₀.insert p.1).2 (Node.traverseList insertBeside ts s).2 := by
  induction ts generalizing s with
  | nil => exact ⟨.refl s, nofun⟩
  | cons t ts ih =>
    obtain ⟨hkeeps, hrest⟩ := ih (s.insert t).2
    have hcons : Node.traverseList insertBeside (t :: ts) s = ((t, (s.insert t).1) ::
        (Node.traverseList insertBeside ts (s.insert t).2).1, (Node.traverseList insertBeside ts (s.insert t).2).2) := rfl
    rw [hcons]
    refine ⟨(keeps_insert t s).trans hkeeps, fun p hp => ?_⟩
    rcases List.mem_cons.1 hp with rfl | hp
    · exact ⟨List.mem_cons_self, s, rfl, hkeeps⟩
    · obtain ⟨hmem, hfrom⟩ := hrest p hp
      exact ⟨List.mem_cons_of_mem t hmem, hfrom⟩

/-- The children of the top, each beside the slot that it was inserted in. -/
theorem exists_beside (n : Node Tree) (s : Store) : ∃ pairs : Node (Tree × NodeId), pairs.map Prod.fst = n ∧
    pairs.map Prod.snd = (n.traverse (Tree.fold insertNode) s).1 ∧ ∀ p ∈ pairs.children, p.1 ∈ n.children ∧
      ∃ s₀ : Store, p.2 = (s₀.insert p.1).1 ∧ Keeps (s₀.insert p.1).2 (n.traverse (Tree.fold insertNode) s).2 := by
  have hfst := congrFun (Node.map_traverse Prod.fst insertBeside n) s
  have hsnd := congrFun (Node.map_traverse Prod.snd insertBeside n) s
  have hchildren := congrFun (Node.children_traverse insertBeside n) s
  have hstore : (Node.traverseList insertBeside n.children s).2 = (n.traverse (Tree.fold insertNode) s).2 :=
    (congrArg Prod.snd hchildren).symm.trans (congrArg Prod.snd hsnd)
  refine ⟨(n.traverse insertBeside s).1, ?_, congrArg Prod.fst hsnd, fun p hp => ?_⟩
  · exact (congrArg Prod.fst hfst).trans (Node.traverse_fst (fun _ _ => rfl) n s)
  · have hmem : p ∈ (Node.traverseList insertBeside n.children s).1 := congrArg Prod.fst hchildren ▸ hp
    obtain ⟨hn, s₀, hp₂, hkeeps⟩ := (traverseList_beside n.children s).2 p hmem
    exact ⟨hn, s₀, hp₂, hstore ▸ hkeeps⟩

/-- An inserted tree is found again, also when the store has grown further. -/
theorem tree_of_keeps (hF : Forest s'.children K) (hin : ∀ x ∈ K, x.index < s'.size) (hkeeps : Keeps (s.insert t).2 s')
    (hx : (s.insert t).1 ∈ K) : s'.tree (s.insert t).1 = t := by
  induction t using Tree.induct generalizing s with
  | mk n ih =>
    obtain ⟨pairs, hfst, hsnd, hpairs⟩ := exists_beside n s
    rw [tree_eq hF hin hx, hkeeps.get_insert, ← hsnd, Node.map_map]
    refine congrArg Tree.mk ((Node.map_congr fun p hp => ?_).trans hfst)
    obtain ⟨hmem, s₀, hp₂, hkeeps₀⟩ := hpairs p hp
    rw [hp₂]
    refine ih p.1 hmem (hkeeps₀.trans hkeeps.of_insert) ?_
    refine hF.closed _ hx _ ?_
    rw [children, hkeeps.get_insert, ← hsnd, Node.children_map, ← hp₂]
    exact List.mem_map_of_mem hp

theorem tree_insert (t : Tree) (s : Store) : (s.insert t).2.tree (s.insert t).1 = t := by
  have hplanted := insert_planted t s
  exact tree_of_keeps hplanted.tops.forest (fun x hx => hx.2) (.refl _) (hplanted.tops.loose _ List.mem_cons_self).1

section Keeps
variable {P : Store → Prop}

theorem traverseList_keeps {ts : List Tree} (h : ∀ t ∈ ts, ∀ s : Store, P s → P (s.insert t).2) (hs : P s) :
    P (Node.traverseList (Tree.fold insertNode) ts s).2 := by
  induction ts generalizing s with
  | nil => exact hs
  | cons t ts ih => exact ih (fun u hu => h u (List.mem_cons_of_mem t hu)) (h t List.mem_cons_self s hs)

/-- What the insertion of each child keeps, the insertion of all of them keeps. -/
theorem traverse_keeps {n : Node Tree} (h : ∀ t ∈ n.children, ∀ s : Store, P s → P (s.insert t).2) (hs : P s) :
    P (n.traverse (Tree.fold insertNode) s).2 := by
  have hstore := congrArg Prod.snd (congrFun (Node.children_traverse (Tree.fold insertNode) n) s)
  have hlist : P (Node.traverseList (Tree.fold insertNode) n.children s).2 := traverseList_keeps h hs
  rwa [← hstore] at hlist

theorem insertAll_keeps {ts : List Tree} (h : ∀ t ∈ ts, ∀ s : Store, P s → P (s.insert t).2) (hs : P s) :
    P (s.insertAll ts).2 := by
  induction ts with
  | nil => exact hs
  | cons t ts ih => exact h t List.mem_cons_self _ (ih fun u hu => h u (List.mem_cons_of_mem t hu))

end Keeps

end Store

/-! ## The number of nodes -/

namespace Tree

def count : Tree → Nat
  | .mk n => (n.children.attach.map fun c => count c.1).sum + 1
termination_by t => sizeOf t
decreasing_by exact sizeOf_children c.2

theorem count_mk (n : Node Tree) : (Tree.mk n).count = (n.children.map count).sum + 1 := by
  rw [count, List.attach_map_val]

end Tree

namespace Store

variable {s : Store}

theorem size_traverseList {ts : List Tree} (h : ∀ t ∈ ts, ∀ s : Store, (s.insert t).2.size = s.size + t.count) (s : Store) :
    (Node.traverseList (Tree.fold insertNode) ts s).2.size = s.size + (ts.map Tree.count).sum := by
  induction ts generalizing s with
  | nil => rfl
  | cons t ts ih =>
    change (Node.traverseList (Tree.fold insertNode) ts (s.insert t).2).2.size = _
    rw [ih fun u hu => h u (List.mem_cons_of_mem t hu), h t List.mem_cons_self, List.map_cons, List.sum_cons, Nat.add_assoc]

/-- Each node of an inserted tree takes a slot. -/
theorem size_insert (t : Tree) (s : Store) : (s.insert t).2.size = s.size + t.count := by
  induction t using Tree.induct generalizing s with
  | mk n ih =>
    have hlist := size_traverseList ih s
    have hstore := congrArg Prod.snd (congrFun (Node.children_traverse (Tree.fold insertNode) n) s)
    rw [insert_mk, size_alloc, Tree.count_mk, ← Nat.add_assoc, ← hlist, ← hstore]
    rfl

end Store
end Graft
