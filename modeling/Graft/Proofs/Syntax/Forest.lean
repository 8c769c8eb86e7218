import Mathlib.Data.List.Nodup
import Mathlib.Data.List.Perm.Subperm
import Mathlib.Data.Set.Insert
import Mathlib.Logic.Relation
/-!
# Forests of nodes that hold each other

`kids` says which nodes a node holds, slot by slot. A set of nodes is a `Forest` if it is closed under holding,
no node of it stands in two slots of it, and nothing in it holds itself from below. Edits move nodes about:
`Tops` lists nodes that no slot holds, and `Spare` such nodes that a node `w` may take without closing a circle.

Each way to change `kids` has one lemma: `write` gives `w` other slots, `alloc` puts a new node above spare ones,
`opened` drops a spare node and frees what it held, `join` adds a forest that stands apart.
-/

namespace Graft

variable {α : Type} {kids kids' : α → List α} {K F : Set α} {w : α} {ls rest : List α}

/-- `x` is `p`, or held by a node below `p`. -/
def Below (kids : α → List α) (p x : α) : Prop := Relation.ReflTransGen (fun p c => c ∈ kids p) p x

structure Forest (kids : α → List α) (K : Set α) : Prop where
  closed : ∀ p ∈ K, ∀ c ∈ kids p, c ∈ K
  nodup : ∀ p ∈ K, (kids p).Nodup
  holder : ∀ p ∈ K, ∀ q ∈ K, ∀ c, c ∈ kids p → c ∈ kids q → p = q
  acc : ∀ p ∈ K, Acc (fun c p => c ∈ kids p) p

/-- No node of `K` holds `c`. -/
def Loose (kids : α → List α) (K : Set α) (c : α) : Prop := ∀ p ∈ K, c ∉ kids p

/-! ## Below -/

theorem Below.refl (p : α) : Below kids p p := Relation.ReflTransGen.refl

theorem Below.kid {p c : α} (h : c ∈ kids p) : Below kids p c := Relation.ReflTransGen.single h

theorem Below.trans {p q x : α} (h : Below kids p q) (h' : Below kids q x) : Below kids p x :=
  Relation.ReflTransGen.trans h h'

theorem Below.mono {p x : α} (h : Below kids p x) (sub : ∀ q, ∀ c ∈ kids q, c ∈ kids' q) : Below kids' p x :=
  Relation.ReflTransGen.mono (fun q c hc => sub q c hc) _ _ h

/-- A path that never meets a changed node is a path before the change. -/
theorem Below.of_agree {p x : α} (h : Below kids' p x) (agree : ∀ y, Below kids p y → kids' y = kids y) :
    Below kids p x := by
  induction h with
  | refl => exact .refl p
  | tail _ hc ih => exact ih.trans (.kid (agree _ ih ▸ hc))

theorem Below.agree_iff {p x : α} (agree : ∀ y, Below kids p y → kids' y = kids y) :
    Below kids' p x ↔ Below kids p x := by
  refine ⟨fun h => h.of_agree agree, fun h => ?_⟩
  induction h with
  | refl => exact .refl p
  | tail h hc ih => exact ih.trans (.kid (by rw [agree _ h]; exact hc))

/-- What is below a node that a write leaves alone was below it before. -/
theorem Below.of_write [DecidableEq α] {cs : List α} {p x : α} (h : Below (Function.update kids w cs) p x)
    (hw : ¬ Below kids p w) : Below kids p x :=
  h.of_agree fun _ hy => Function.update_of_ne (by rintro rfl; exact hw hy) _ _

namespace Forest

theorem below_mem (h : Forest kids K) {p x : α} (hp : p ∈ K) (hx : Below kids p x) : x ∈ K := by
  induction hx with
  | refl => exact hp
  | tail _ hc ih => exact h.closed _ ih _ hc

/-- Nothing holds itself from below. -/
theorem not_below_kid (h : Forest kids K) {p c : α} (hp : p ∈ K) (hc : c ∈ kids p) : ¬ Below kids c p := by
  have circle (x : α) (hx : Acc (fun c p => c ∈ kids p) x) : ∀ c ∈ kids x, ¬ Below kids c x := by
    induction hx with
    | intro x _ ih =>
      intro c hc hb
      rcases Relation.ReflTransGen.cases_head hb with rfl | ⟨d, hd, hdx⟩
      · exact ih c hc c hc (.refl c)
      · exact ih c hc d hd (hdx.tail hc)
  exact circle p (h.acc p hp) c hc

/-- Going up from a held node leads to its holder. -/
theorem below_holder (h : Forest kids K) {ℓ q c : α} (hℓ : ℓ ∈ K) (hq : q ∈ K) (hc : c ∈ kids q)
    (hb : Below kids ℓ c) (hne : ℓ ≠ c) : Below kids ℓ q := by
  rcases Relation.ReflTransGen.cases_tail hb with he | ⟨p, hp, hpc⟩
  · exact absurd he.symm hne
  · rwa [h.holder p (h.below_mem hℓ hp) q hq c hpc hc] at hp

theorem congr (h : Forest kids K) (agree : ∀ x ∈ K, kids' x = kids x) : Forest kids' K where
  closed p hp := by rw [agree p hp]; exact h.closed p hp
  nodup p hp := by rw [agree p hp]; exact h.nodup p hp
  holder p hp q hq := by rw [agree p hp, agree q hq]; exact h.holder p hp q hq
  acc p hp := by
    induction h.acc p hp with
    | intro p _ ih =>
      refine ⟨p, fun c hc => ?_⟩
      rw [agree p hp] at hc
      exact ih c hc (h.closed p hp c hc)

theorem subset (h : Forest kids K) (hF : F ⊆ K) (closed : ∀ p ∈ F, ∀ c ∈ kids p, c ∈ F) : Forest kids F where
  closed := closed
  nodup p hp := h.nodup p (hF hp)
  holder p hp q hq := h.holder p (hF hp) q (hF hq)
  acc p hp := h.acc p (hF hp)

theorem union (h : Forest kids K) (h' : Forest kids F) (apart : ∀ x ∈ F, x ∉ K) : Forest kids (K ∪ F) where
  closed p hp c hc := hp.imp (h.closed p · c hc) (h'.closed p · c hc)
  nodup p hp := hp.elim (h.nodup p) (h'.nodup p)
  holder p hp q hq c hc hc' := by
    rcases hp with hp | hp <;> rcases hq with hq | hq
    · exact h.holder p hp q hq c hc hc'
    · exact absurd (h.closed p hp c hc) (apart c (h'.closed q hq c hc'))
    · exact absurd (h.closed q hq c hc') (apart c (h'.closed p hp c hc))
    · exact h'.holder p hp q hq c hc hc'
  acc p hp := hp.elim (h.acc p) (h'.acc p)

theorem erase (h : Forest kids K) {g : α} (hg : Loose kids K g) : Forest kids (K \ {g}) :=
  h.subset (fun _ hx => hx.1) fun p hp c hc =>
    ⟨h.closed p hp.1 c hc, fun e => hg p hp.1 (Set.mem_singleton_iff.1 e ▸ hc)⟩

end Forest

theorem Loose.mono (h : Loose kids K w) (hF : F ⊆ K) : Loose kids F w := fun p hp => h p (hF hp)

/-! ## Nodes that nothing holds -/

/-- The nodes `ls` of the forest are held nowhere in it. -/
structure Tops (kids : α → List α) (K : Set α) (ls : List α) : Prop where
  forest : Forest kids K
  nodup : ls.Nodup
  loose : ∀ ℓ ∈ ls, ℓ ∈ K ∧ Loose kids K ℓ

namespace Tops

theorem of_forest (h : Forest kids K) : Tops kids K [] := ⟨h, List.nodup_nil, by simp⟩

theorem take (h : Tops kids K ls) (hs : List.Subperm rest ls) : Tops kids K rest where
  forest := h.forest
  nodup := by
    obtain ⟨l, hl, hsub⟩ := hs
    exact hl.nodup_iff.1 (h.nodup.sublist hsub)
  loose ℓ hℓ := h.loose ℓ (hs.subset hℓ)

theorem left (h : Tops kids K (ls ++ rest)) : Tops kids K ls := h.take (List.sublist_append_left ls rest).subperm

theorem right (h : Tops kids K (ls ++ rest)) : Tops kids K rest := h.take (List.sublist_append_right ls rest).subperm

theorem congr (h : Tops kids K ls) (agree : ∀ x ∈ K, kids' x = kids x) : Tops kids' K ls where
  forest := h.forest.congr agree
  nodup := h.nodup
  loose ℓ hℓ := ⟨(h.loose ℓ hℓ).1, fun p hp => by rw [agree p hp]; exact (h.loose ℓ hℓ).2 p hp⟩

theorem join (h : Tops kids K ls) {tops : List α} (h' : Tops kids F tops) (apart : ∀ x ∈ F, x ∉ K) :
    Tops kids (K ∪ F) (ls ++ tops) where
  forest := h.forest.union h'.forest apart
  nodup := List.nodup_append'.2 ⟨h.nodup, h'.nodup, fun x hx hx' => apart x (h'.loose x hx').1 (h.loose x hx).1⟩
  loose ℓ hℓ := by
    rcases List.mem_append.1 hℓ with hℓ | hℓ
    · obtain ⟨hm, hL⟩ := h.loose ℓ hℓ
      exact ⟨.inl hm, fun p hp => hp.elim (hL p) fun hp hc => apart ℓ (h'.forest.closed p hp ℓ hc) hm⟩
    · obtain ⟨hm, hL⟩ := h'.loose ℓ hℓ
      exact ⟨.inr hm, fun p hp => hp.elim (fun hp hc => apart ℓ hm (h.forest.closed p hp ℓ hc)) (hL p)⟩

/-- Dropping a top frees what it held. -/
theorem opened {g : α} (h : Tops kids K (g :: ls)) : Tops kids (K \ {g}) (kids g ++ ls) := by
  obtain ⟨hgK, hgL⟩ := h.loose g List.mem_cons_self
  obtain ⟨hgl, hn⟩ := List.nodup_cons.1 h.nodup
  refine ⟨h.forest.erase hgL, List.nodup_append'.2 ⟨h.forest.nodup g hgK, hn, fun x hx hx' => ?_⟩, ?_⟩
  · exact (h.loose x (List.mem_cons_of_mem _ hx')).2 g hgK hx
  · intro ℓ hℓ
    rcases List.mem_append.1 hℓ with hℓ | hℓ
    · refine ⟨⟨h.forest.closed g hgK ℓ hℓ, fun e => hgL g hgK (Set.mem_singleton_iff.1 e ▸ hℓ)⟩, fun p hp hc => hp.2 ?_⟩
      exact h.forest.holder p hp.1 g hgK ℓ hc hℓ
    · obtain ⟨hm, hL⟩ := h.loose ℓ (List.mem_cons_of_mem _ hℓ)
      exact ⟨⟨hm, fun e => hgl (Set.mem_singleton_iff.1 e ▸ hℓ)⟩, hL.mono fun _ hx => hx.1⟩

/-- A new node takes the first tops, and is a top itself. -/
theorem alloc [DecidableEq α] {cs : List α} {r : α} (h : Tops kids K (cs ++ ls)) (hr : r ∉ K) :
    Tops (Function.update kids r cs) (insert r K) (r :: ls) := by
  have agree : ∀ x ∈ K, Function.update kids r cs x = kids x := fun x hx =>
    Function.update_of_ne (by rintro rfl; exact hr hx) _ _
  have hf := h.forest.congr agree
  have hself : Function.update kids r cs r = cs := Function.update_self ..
  refine ⟨⟨?_, ?_, ?_, ?_⟩, List.nodup_cons.2 ⟨fun hℓ => hr (h.right.loose r hℓ).1, h.right.nodup⟩, ?_⟩
  · rintro p (rfl | hp) c hc
    · rw [hself] at hc
      exact .inr (h.left.loose c hc).1
    · exact .inr (hf.closed p hp c hc)
  · rintro p (rfl | hp)
    · rw [hself]; exact h.left.nodup
    · exact hf.nodup p hp
  · rintro p (rfl | hp) q (rfl | hq) c hc hc'
    · rfl
    · rw [hself] at hc
      rw [agree q hq] at hc'
      exact absurd hc' ((h.left.loose c hc).2 q hq)
    · rw [hself] at hc'
      rw [agree p hp] at hc
      exact absurd hc ((h.left.loose c hc').2 p hp)
    · exact hf.holder p hp q hq c hc hc'
  · rintro p (rfl | hp)
    · refine ⟨p, fun c hc => ?_⟩
      rw [hself] at hc
      exact hf.acc c (h.left.loose c hc).1
    · exact hf.acc p hp
  -- no known node holds the new one, and what it holds is held by nothing else
  · intro ℓ hℓ
    rcases List.mem_cons.1 hℓ with rfl | hm
    · refine ⟨.inl rfl, ?_⟩
      rintro p (rfl | hp) hc
      · rw [hself] at hc
        exact hr (h.left.loose _ hc).1
      · rw [agree p hp] at hc
        exact hr (h.forest.closed p hp _ hc)
    · obtain ⟨hK, hL⟩ := h.right.loose ℓ hm
      refine ⟨.inr hK, ?_⟩
      rintro p (rfl | hp) hc
      · rw [hself] at hc
        exact List.disjoint_of_nodup_append h.nodup hc hm
      · rw [agree p hp] at hc
        exact hL p hp hc

end Tops

/-! ## Nodes to spare -/

/-- `w` belongs to the forest too, and none of the tops is above it. -/
structure Spare (kids : α → List α) (K : Set α) (w : α) (ls : List α) : Prop extends Tops kids K ls where
  mem : w ∈ K
  above : ∀ ℓ ∈ ls, ¬ Below kids ℓ w

namespace Spare

theorem of_forest (h : Forest kids K) (hw : w ∈ K) : Spare kids K w [] := ⟨.of_forest h, hw, by simp⟩

theorem take (h : Spare kids K w ls) (hs : List.Subperm rest ls) : Spare kids K w rest :=
  ⟨h.toTops.take hs, h.mem, fun ℓ hℓ => h.above ℓ (hs.subset hℓ)⟩

theorem congr (h : Spare kids K w ls) (agree : ∀ x ∈ K, kids' x = kids x) : Spare kids' K w ls where
  toTops := h.toTops.congr agree
  mem := h.mem
  above ℓ hℓ hb := h.above ℓ hℓ (hb.of_agree fun y hy => agree y (h.forest.below_mem (h.loose ℓ hℓ).1 hy))

theorem join (h : Spare kids K w ls) {tops : List α} (h' : Tops kids F tops) (apart : ∀ x ∈ F, x ∉ K) :
    Spare kids (K ∪ F) w (ls ++ tops) where
  toTops := h.toTops.join h' apart
  mem := .inl h.mem
  above ℓ hℓ hb := by
    rcases List.mem_append.1 hℓ with hℓ | hℓ
    · exact h.above ℓ hℓ hb
    · exact apart w (h'.forest.below_mem (h'.loose ℓ hℓ).1 hb) h.mem

theorem opened {g : α} (h : Spare kids K w (g :: ls)) : Spare kids (K \ {g}) w (kids g ++ ls) where
  toTops := h.toTops.opened
  mem := ⟨h.mem, by rintro rfl; exact h.above _ List.mem_cons_self (.refl _)⟩
  above ℓ hℓ hb := by
    rcases List.mem_append.1 hℓ with hℓ | hℓ
    · exact h.above g List.mem_cons_self ((Below.kid hℓ).trans hb)
    · exact h.above ℓ (List.mem_cons_of_mem _ hℓ) hb

/-- What is not above a node is not above what that node holds. -/
theorem at_kid (h : Spare kids K w ls) {v : α} (hv : v ∈ kids w) : Spare kids K v ls where
  toTops := h.toTops
  mem := h.forest.closed w h.mem v hv
  above ℓ hℓ hb := by
    obtain ⟨hm, hL⟩ := h.loose ℓ hℓ
    refine h.above ℓ hℓ (h.forest.below_holder hm h.mem hv hb ?_)
    rintro rfl
    exact hL w h.mem hv

section Changes
variable [DecidableEq α] {cs : List α}

theorem alloc {r : α} (h : Spare kids K w (cs ++ ls)) (hr : r ∉ K) :
    Spare (Function.update kids r cs) (insert r K) w (r :: ls) where
  toTops := h.toTops.alloc hr
  mem := .inr h.mem
  above ℓ hℓ hb := by
    have still {x : α} (hx : x ∈ cs ++ ls) (hb : Below (Function.update kids r cs) x w) : False := by
      refine h.above x hx (hb.of_agree fun y hy => Function.update_of_ne ?_ _ _)
      rintro rfl
      exact hr (h.forest.below_mem (h.loose x hx).1 hy)
    rcases List.mem_cons.1 hℓ with rfl | hm
    · rcases Relation.ReflTransGen.cases_head hb with rfl | ⟨c, hc, hcw⟩
      · exact hr h.mem
      · rw [Function.update_self] at hc
        exact still (List.mem_append_left _ hc) hcw
    · exact still (List.mem_append_right _ hm) hb

/-- Every node of a changed forest is accessible if what `w` holds now is. -/
theorem acc_write (h : Spare kids K w ls) (hcs : ∀ c ∈ cs, c ∈ kids w ∨ c ∈ ls) :
    ∀ p ∈ K, Acc (fun c p => c ∈ Function.update kids w cs p) p := by
  have aside (x : α) (hx : Acc (fun c p => c ∈ kids p) x) (hw : ¬ Below kids x w) :
      Acc (fun c p => c ∈ Function.update kids w cs p) x := by
    induction hx with
    | intro x _ ih =>
      have hne : x ≠ w := fun e => hw (e ▸ .refl x)
      refine ⟨x, fun c hc => ?_⟩
      rw [Function.update_of_ne hne] at hc
      exact ih c hc fun hb => hw ((Below.kid hc).trans hb)
  intro p hp
  induction h.forest.acc p hp with
  | intro p _ ih =>
    refine ⟨p, fun c hc => ?_⟩
    by_cases hpw : p = w
    · subst hpw
      rw [Function.update_self] at hc
      rcases hcs c hc with hk | hℓ
      · exact ih c hk (h.forest.closed p hp c hk)
      · exact aside c (h.forest.acc c (h.loose c hℓ).1) (h.above c hℓ)
    · rw [Function.update_of_ne hpw] at hc
      exact ih c hc (h.forest.closed p hp c hc)

/-- `w` gets other slots, filled with nodes that it held or that were to spare. -/
theorem write (h : Spare kids K w (ls ++ rest)) (hn : cs.Nodup) (hcs : ∀ c ∈ cs, c ∈ kids w ∨ c ∈ ls) :
    Spare (Function.update kids w cs) K w rest := by
  have hls : Spare kids K w ls := h.take (List.sublist_append_left ls rest).subperm
  have hrest : Spare kids K w rest := h.take (List.sublist_append_right ls rest).subperm
  have hself : Function.update kids w cs w = cs := Function.update_self ..
  have hother {p : α} (hp : p ≠ w) : Function.update kids w cs p = kids p := Function.update_of_ne hp ..
  refine ⟨⟨⟨?_, ?_, ?_, hls.acc_write hcs⟩, hrest.nodup, ?_⟩, h.mem, fun ℓ hℓ hb => ?_⟩
  · intro p hp c hc
    by_cases hpw : p = w
    · rw [hpw, hself] at hc
      exact (hcs c hc).elim (h.forest.closed w h.mem c) fun hℓ => (hls.loose c hℓ).1
    · rw [hother hpw] at hc
      exact h.forest.closed p hp c hc
  · intro p hp
    by_cases hpw : p = w
    · rwa [hpw, hself]
    · rw [hother hpw]
      exact h.forest.nodup p hp
  -- what `w` holds now, no other node holds: it was held by `w` or by none
  · have alone (q c : α) (hq : q ∈ K) (hqw : q ≠ w) (hc : c ∈ cs) (hcq : c ∈ kids q) : False := by
      rcases hcs c hc with hk | hℓ
      · exact hqw (h.forest.holder q hq w h.mem c hcq hk)
      · exact (hls.loose c hℓ).2 q hq hcq
    intro p hp q hq c hc hc'
    by_cases hpw : p = w <;> by_cases hqw : q = w
    · exact hpw.trans hqw.symm
    · rw [hpw, hself] at hc
      rw [hother hqw] at hc'
      exact (alone q c hq hqw hc hc').elim
    · rw [hqw, hself] at hc'
      rw [hother hpw] at hc
      exact (alone p c hp hpw hc' hc).elim
    · rw [hother hpw] at hc
      rw [hother hqw] at hc'
      exact h.forest.holder p hp q hq c hc hc'
  · intro ℓ hℓ
    obtain ⟨hm, hL⟩ := hrest.loose ℓ hℓ
    refine ⟨hm, fun p hp hc => ?_⟩
    by_cases hpw : p = w
    · rw [hpw, hself] at hc
      rcases hcs ℓ hc with hk | hls'
      · exact hL w h.mem hk
      · exact List.disjoint_of_nodup_append h.nodup hls' hℓ
    · rw [hother hpw] at hc
      exact hL p hp hc
  · exact hrest.above ℓ hℓ (hb.of_write (hrest.above ℓ hℓ))

/-- Emptying a node leaves what it held to spare. -/
theorem emptied (h : Forest kids K) (hw : w ∈ K) : Spare (Function.update kids w []) K w (kids w) := by
  have h₀ : Spare kids K w ([] ++ []) := of_forest h hw
  have hn := h₀.write List.nodup_nil (by simp)
  refine ⟨⟨hn.forest, h.nodup w hw, fun ℓ hℓ => ⟨h.closed w hw ℓ hℓ, fun p hp hc => ?_⟩⟩, hw, fun ℓ hℓ hb => ?_⟩
  · by_cases hpw : p = w
    · simp [hpw] at hc
    · rw [Function.update_of_ne hpw] at hc
      exact hpw (h.holder p hp w hw ℓ hc hℓ)
  · exact h.not_below_kid hw hℓ (hb.of_write (h.not_below_kid hw hℓ))

end Changes
end Spare
end Graft
