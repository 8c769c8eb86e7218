import Graft.Proofs.Query.Walk
import Graft.Proofs.Syntax.Fitting
/-!
# Trees in a growing store

What is below a slot of a closed store stays as it is when the store gets more slots (`Store.Extends.tree`). The bound that a
tree is read with grows with the store. That makes no difference, since a tree that can be read at all is no higher than
there are slots (`Store.treeWithin_size`).
-/

namespace Graft

namespace Node
variable {α : Type} {β : Type} {f g : α → Option β}

theorem traverseList_congr {as : List α} (h : ∀ a ∈ as, f a = g a) : traverseList f as = traverseList g as := by
  induction as with
  | nil => rfl
  | cons a as ih =>
    rw [traverseList, traverseList, h a List.mem_cons_self, ih fun b hb => h b (List.mem_cons_of_mem _ hb)]

/-- A traversal looks at the children only. -/
theorem traverse_congr {n : Node α} (h : ∀ c ∈ n.children, f c = g c) : n.traverse f = n.traverse g := by
  have single {a : α} (ha : a ∈ n.children) : f a = g a := h a ha
  have list {as : List α} (hs : ∀ a ∈ as, a ∈ n.children) : traverseList f as = traverseList g as :=
    traverseList_congr fun a ha => h a (hs a ha)
  have option {o : Option α} (hs : ∀ a, o = some a → a ∈ n.children) : traverseOption f o = traverseOption g o := by
    cases o with
    | none => rfl
    | some a => rw [traverseOption, traverseOption, h a (hs a rfl)]
  have holes {as : List (Option α)} (hs : ∀ a, some a ∈ as → a ∈ n.children) :
      traverseList (traverseOption f) as = traverseList (traverseOption g) as :=
    traverseList_congr fun o ho => option fun a ha => hs a (ha ▸ ho)
  cases n <;>
    simp only [children, fields, Func.fields, ClassParts.fields, List.flatMap_cons, List.flatMap_nil, List.append_nil,
      Field.children_node, Field.children_list, Field.children_holes, Field.children_text, Field.children_flag,
      Field.children_ofOption, Field.children_field, List.mem_append, List.mem_cons, Option.mem_toList, List.mem_filterMap,
      id_eq, List.nil_append, List.not_mem_nil, or_false, exists_eq_right] at h single list option holes <;>
    simp only [traverse, traverseFunc, traverseClass] <;>
    grind

/-- A traversal that succeeds does so on every child. -/
theorem isSome_of_traverse {n : Node α} (h : (n.traverse f).isSome = true) : ∀ c ∈ n.children, (f c).isSome = true := by
  have list (as : List α) (h : (traverseList f as).isSome = true) : ∀ c ∈ as, (f c).isSome = true := by
    induction as with
    | nil => simp
    | cons a as ih =>
      rw [traverseList] at h
      obtain ⟨bs, hbs⟩ := Option.isSome_iff_exists.1 h
      obtain ⟨b, hb, hrest⟩ := Option.bind_eq_some_iff.1 hbs
      obtain ⟨bs', hbs', -⟩ := Option.bind_eq_some_iff.1 hrest
      intro c hc
      rcases List.mem_cons.1 hc with rfl | hc
      · rw [hb]
        rfl
      · exact ih (by rw [hbs']; rfl) c hc
  refine list n.children ?_
  rw [← children_traverse]
  simpa using h

end Node

namespace Store
variable {s s' : Store} {held : List NodeId} {id : NodeId} {depth : Nat}

/-! ## The height of a tree -/

theorem treeWithin_succ : s.treeWithin (depth + 1) id = ((s.get id).traverse (s.treeWithin depth)).map Tree.mk := by
  rw [treeWithin]
  cases (s.get id).traverse (s.treeWithin depth) <;> rfl

/-- A tree that is read within a bound is read within the next. -/
theorem treeWithin_deeper (h : (s.treeWithin depth id).isSome = true) :
    s.treeWithin (depth + 1) id = s.treeWithin depth id := by
  induction depth generalizing id with
  | zero => cases h
  | succ depth ih =>
    rw [treeWithin_succ, Option.isSome_map] at h
    rw [treeWithin_succ, @treeWithin_succ s id depth, Node.traverse_congr fun c hc => ih (Node.isSome_of_traverse h c hc)]

/-- A tree that is read within a bound and not within the one before has a path as long as the bound. No node is twice on it,
since the trees below its nodes differ in height. -/
theorem exists_path (hs : s.Closed) (hid : id.index < s.size) (h : (s.treeWithin (depth + 1) id).isSome = true)
    (hlow : s.treeWithin depth id = none) : ∃ path : List NodeId, path.length = depth + 1 ∧ path.Nodup ∧
      ∀ x ∈ path, x.index < s.size ∧ (s.treeWithin (depth + 1) x).isSome = true := by
  induction depth generalizing id with
  | zero => exact ⟨[id], rfl, List.nodup_singleton id, by simpa using ⟨hid, h⟩⟩
  | succ depth ih =>
    have hkids : ∀ c ∈ s.children id, (s.treeWithin (depth + 1) c).isSome = true := by
      rw [treeWithin_succ, Option.isSome_map] at h
      exact Node.isSome_of_traverse h
    obtain ⟨c, hc, hlow'⟩ : ∃ c ∈ s.children id, s.treeWithin depth c = none := by
      by_contra hall
      have hsome : ∀ c ∈ s.children id, (s.treeWithin depth c).isSome = true := by
        intro c hc
        rw [Option.isSome_iff_ne_none]
        exact fun hn => hall ⟨c, hc, hn⟩
      obtain ⟨n, hn⟩ := Option.isSome_iff_exists.1 (Node.traverse_isSome hsome)
      rw [treeWithin_succ, hn] at hlow
      cases hlow
    obtain ⟨path, hlen, hnodup, hpath⟩ := ih (hs id c hc) (hkids c hc) hlow'
    refine ⟨id :: path, by rw [List.length_cons, hlen], List.nodup_cons.2 ⟨fun hmem => ?_, hnodup⟩, fun x hx => ?_⟩
    · exact absurd (hpath id hmem).2 (by simp [hlow])
    · rcases List.mem_cons.1 hx with rfl | hx
      · exact ⟨hid, h⟩
      · obtain ⟨hin, hsome⟩ := hpath x hx
        exact ⟨hin, by rwa [treeWithin_deeper hsome]⟩

/-- No bound above the number of slots makes a difference. -/
theorem treeWithin_size (hs : s.Closed) (hid : id.index < s.size) (hd : s.size < depth) :
    s.treeWithin depth id = s.tree? id := by
  obtain ⟨more, rfl⟩ := Nat.exists_eq_add_of_lt hd
  clear hd
  induction more with
  | zero => rfl
  | succ more ih =>
    rw [← ih, show s.size + (more + 1) + 1 = s.size + more + 1 + 1 from rfl]
    cases hlow : s.treeWithin (s.size + more + 1) id with
    | some t => rw [treeWithin_deeper (by rw [hlow]; rfl), hlow]
    | none =>
      rw [Option.eq_none_iff_forall_ne_some]
      intro t ht
      obtain ⟨path, hlen, hnodup, hpath⟩ := exists_path hs hid (by rw [ht]; rfl) hlow
      have := length_le_size hnodup fun x hx => (hpath x hx).1
      omega

/-! ## More slots -/

/-- What is below a slot stays when slots are added. -/
theorem Extends.tree (h : Extends s s' held) (hs : s.Closed) (hid : id.index < s.size) : s'.tree id = s.tree id := by
  have within (depth : Nat) : ∀ x : NodeId, x.index < s.size → s'.treeWithin depth x = s.treeWithin depth x := by
    induction depth with
    | zero => exact fun _ _ => rfl
    | succ depth ih =>
      intro x hx
      rw [treeWithin_succ, treeWithin_succ, h.get x hx, Node.traverse_congr fun c hc => ih c (hs x c hc)]
  have hsize := h.size
  rw [Store.tree, Store.tree, tree?, within _ id hid, treeWithin_size hs hid (by omega)]

/-- Nothing that is added to a closed store is below what was there. -/
theorem Extends.below_lt (h : Extends s s' held) (hs : s.Closed) (hid : id.index < s.size) {x : NodeId}
    (hx : Below s'.children id x) : x.index < s.size := by
  refine hs.below hid (hx.of_agree fun y hy => ?_)
  exact h.children (hs.below hid hy)

end Store
end Graft
