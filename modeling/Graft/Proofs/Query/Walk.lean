import Graft.Proofs.Syntax.Store
import Graft.Query.Match
/-!
# Walks end

Below a node of a forest, a search and the reading of a tree both come to an end before their bound on steps or depth:
no path repeats a node, and a walk meets no node twice. `Front` is what a walk keeps of the nodes that it has
seen and those on its stack.
-/

namespace Graft

section Front
variable {α : Type} {kids : α → List α} {K : Set α} {seen stack : List α} {id x : α}

/-- Nothing on the stack is above another node on it or above a node seen. -/
structure Front (kids : α → List α) (K : Set α) (seen stack : List α) : Prop where
  nodup : (seen ++ stack).Nodup
  mem : ∀ x ∈ seen ++ stack, x ∈ K
  apart : ∀ x ∈ stack, ∀ y ∈ seen ++ stack, Below kids x y → x = y

/-- The nodes strictly below `id`, slot by slot. -/
theorem Forest.apart_kids (h : Forest kids K) (hid : id ∈ K) : ∀ x ∈ kids id, ∀ y ∈ kids id, Below kids x y → x = y := by
  intro x hx y hy hb
  by_contra hne
  exact h.not_below_kid hid hx (h.below_holder (h.closed id hid x hx) hid hy hb hne)

namespace Front

theorem start (h : Forest kids K) (hid : id ∈ K) : Front kids K [] (kids id) :=
  ⟨by simpa using h.nodup id hid, by simpa using h.closed id hid, by simpa using h.apart_kids hid⟩

/-- One step: the top of the stack is seen, and its children replace it. -/
theorem pop (h : Forest kids K) (hf : Front kids K seen (id :: stack)) : Front kids K (id :: seen) (kids id ++ stack) := by
  have hid : id ∈ K := hf.mem id (by simp)
  obtain ⟨hseen, hidn, hdis⟩ := List.nodup_append'.1 hf.nodup
  obtain ⟨hids, hstack⟩ := List.nodup_cons.1 hidn
  -- a child of the node is not above what has been seen or waits, since the node itself is not
  have alone {y : α} (hy : y ∈ seen ∨ y ∈ stack) {c : α} (hc : c ∈ kids id) : ¬ Below kids c y := by
    intro hb
    obtain rfl := hf.apart id List.mem_cons_self y (by rcases hy with hy | hy <;> simp [hy]) ((Below.kid hc).trans hb)
    exact h.not_below_kid hid hc hb
  have hkid {c : α} (hc : c ∈ kids id) : c ∉ id :: seen ∧ c ∉ stack := by
    refine ⟨fun hm => ?_, fun hm => alone (.inr hm) hc (.refl c)⟩
    rcases List.mem_cons.1 hm with rfl | hm
    · exact h.not_below_kid hid hc (.refl c)
    · exact alone (.inl hm) hc (.refl c)
  refine ⟨?_, ?_, ?_⟩
  · refine List.nodup_append'.2 ⟨List.nodup_cons.2 ⟨fun hm => hdis hm List.mem_cons_self, hseen⟩, ?_, fun x hx hx' => ?_⟩
    · exact List.nodup_append'.2 ⟨h.nodup id hid, hstack, fun x hx hx' => (hkid hx).2 hx'⟩
    · rcases List.mem_append.1 hx' with hk | hs
      · exact (hkid hk).1 hx
      · rcases List.mem_cons.1 hx with rfl | hx
        · exact hids hs
        · exact hdis hx (List.mem_cons_of_mem _ hs)
  · intro x hx
    simp only [List.mem_append, List.mem_cons] at hx
    rcases hx with (rfl | hx) | hx | hx
    · exact hid
    · exact hf.mem x (by simp [hx])
    · exact h.closed id hid x hx
    · exact hf.mem x (by simp [hx])
  · intro x hx y hy hb
    simp only [List.mem_append, List.mem_cons] at hx hy
    rcases hx with hx | hx
    · rcases hy with (rfl | hy) | hy | hy
      · exact absurd hb (h.not_below_kid hid hx)
      · exact absurd hb (alone (.inl hy) hx)
      · exact h.apart_kids hid x hx y hy hb
      · exact absurd hb (alone (.inr hy) hx)
    · have hxs : x ∈ id :: stack := List.mem_cons_of_mem _ hx
      rcases hy with (rfl | hy) | hy | hy
      · exact hf.apart x hxs y (by simp) hb
      · exact hf.apart x hxs y (by simp [hy]) hb
      · by_contra hne
        obtain rfl := hf.apart x hxs id (by simp) (h.below_holder (hf.mem x (by simp [hx])) hid hy hb hne)
        exact hids hx
      · exact hf.apart x hxs y (by simp [hy]) hb

end Front
end Front

namespace Store
variable {s : Store} {K : Set NodeId} {seen stack found path : List NodeId} {id : NodeId}

/-- There are no more different nodes than slots. -/
theorem length_le_size (hn : path.Nodup) (hs : ∀ x ∈ path, x.index < s.size) : path.length ≤ s.size := by
  have hmap : (path.map NodeId.index).Nodup := hn.map fun a b hab => by cases a; cases b; simp_all
  have hsub : path.map NodeId.index ⊆ List.range s.size := by
    intro i hi
    obtain ⟨x, hx, rfl⟩ := List.mem_map.1 hi
    exact List.mem_range.2 (hs x hx)
  simpa using (List.subperm_of_subset hmap hsub).length_le

/-! ## Searching -/

theorem front_length (hs : ∀ x ∈ K, x.index < s.size) (hf : Front s.children K seen stack) :
    seen.length + stack.length ≤ s.size := by
  rw [← List.length_append]
  exact length_le_size hf.nodup fun x hx => hs x (hf.mem x hx)

section Walk
variable (hF : Forest s.children K) (hs : ∀ x ∈ K, x.index < s.size)
include hF hs

/-- More steps make no difference. -/
theorem walk_fuel (accepts : Parents → NodeId → Bool) (more : Nat) {fuel : Nat} (ps : Parents)
    (hf : Front s.children K seen stack) (hfuel : s.size + 1 ≤ fuel + seen.length) :
    s.walk accepts (fuel + more) stack ps found = s.walk accepts fuel stack ps found := by
  have hlen := front_length hs hf
  induction fuel generalizing seen stack ps found with
  | zero => omega
  | succ fuel ih =>
    rw [Nat.add_right_comm]
    cases stack with
    | nil => rfl
    | cons id stack =>
      have hf' := Front.pop hF hf
      simp only [walk]
      exact ih _ hf' (by simp only [List.length_cons]; omega) (front_length hs hf')

/-- A walk that accepts all nodes finds those below its stack, each once. -/
theorem walk_found (fuel : Nat) (ps : Parents) (hf : Front s.children K found stack)
    (hfuel : s.size + 1 ≤ fuel + found.length) :
    (s.walk (fun _ _ => true) fuel stack ps found).1.Nodup ∧
      ∀ x, x ∈ (s.walk (fun _ _ => true) fuel stack ps found).1 ↔
        x ∈ found ∨ ∃ y ∈ stack, Below s.children y x := by
  have hlen := front_length hs hf
  induction fuel generalizing found stack ps with
  | zero => omega
  | succ fuel ih =>
    cases stack with
    | nil => exact ⟨by simpa [walk] using hf.nodup, by simp [walk]⟩
    | cons id stack =>
      have hf' := Front.pop hF hf
      obtain ⟨hn, hm⟩ := ih (ps.linkAll (s.children id) id) hf' (by simp only [List.length_cons]; omega) (front_length hs hf')
      simp only [walk, if_true]
      refine ⟨hn, fun x => (hm x).trans ?_⟩
      -- the nodes below the top are the top itself and those below its children
      constructor
      · rintro (hx | ⟨y, hy, hb⟩)
        · rcases List.mem_cons.1 hx with rfl | hx
          · exact .inr ⟨x, List.mem_cons_self, .refl x⟩
          · exact .inl hx
        · rcases List.mem_append.1 hy with hy | hy
          · exact .inr ⟨id, List.mem_cons_self, (Below.kid hy).trans hb⟩
          · exact .inr ⟨y, List.mem_cons_of_mem _ hy, hb⟩
      · rintro (hx | ⟨y, hy, hb⟩)
        · exact .inl (List.mem_cons_of_mem _ hx)
        · rcases List.mem_cons.1 hy with rfl | hy
          · rcases Relation.ReflTransGen.cases_head hb with rfl | ⟨c, hc, hcx⟩
            · exact .inl List.mem_cons_self
            · exact .inr ⟨c, List.mem_append_left _ hc, hcx⟩
          · exact .inr ⟨y, List.mem_append_right _ hy, hb⟩

/-- A search visits every node strictly below its start, and none twice. -/
theorem search_visits (hid : id ∈ K) (ps : Parents) :
    (s.search ps id fun _ _ => true).1.Nodup ∧
      ∀ x, x ∈ (s.search ps id fun _ _ => true).1 ↔ ∃ c ∈ s.children id, Below s.children c x := by
  obtain ⟨hn, hm⟩ := walk_found hF hs (s.size + 1) (ps.linkAll (s.children id) id) (Front.start hF hid) (by simp)
  exact ⟨hn, fun x => (hm x).trans (by simp)⟩

end Walk

/-! ## Reading a tree -/

/-- A path down to a node is shorter than the bound, so the tree below the node is read in full. -/
theorem treeWithin_isSome (hF : Forest s.children K) (hs : ∀ x ∈ K, x.index < s.size) (depth : Nat)
    (path : List NodeId) (hid : id ∈ K) (hn : path.Nodup) (hp : ∀ y ∈ path, y ∈ K ∧ ∃ c ∈ s.children y, Below s.children c id)
    (hd : s.size + 1 ≤ depth + path.length) : (s.treeWithin depth id).isSome = true := by
  induction depth generalizing id path with
  | zero =>
    have := length_le_size hn fun x hx => hs x (hp x hx).1
    omega
  | succ depth ih =>
    have hall : ∀ c ∈ s.children id, (s.treeWithin depth c).isSome = true := by
      intro c hc
      refine ih (id :: path) (hF.closed id hid c hc) (List.nodup_cons.2 ⟨fun hmem => ?_, hn⟩) ?_
        (by simp only [List.length_cons]; omega)
      · obtain ⟨-, d, hd, hb⟩ := hp id hmem
        exact hF.not_below_kid hid hd hb
      · intro y hy
        rcases List.mem_cons.1 hy with rfl | hy
        · exact ⟨hid, c, hc, .refl c⟩
        · obtain ⟨hK, d, hd, hb⟩ := hp y hy
          exact ⟨hK, d, hd, hb.tail hc⟩
    obtain ⟨n, hn⟩ := Option.isSome_iff_exists.1 (Node.traverse_isSome hall)
    simp [treeWithin, hn]

theorem tree?_isSome (hF : Forest s.children K) (hs : ∀ x ∈ K, x.index < s.size) (hid : id ∈ K) :
    (s.tree? id).isSome = true :=
  treeWithin_isSome hF hs (s.size + 1) [] hid List.nodup_nil (by simp) (by simp)

end Store
end Graft
