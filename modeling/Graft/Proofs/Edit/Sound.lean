import Graft.Proofs.Syntax.Store
import Graft.Edit.Editor
/-!
# Sound editors

`Sound e K` is what every edit keeps: the known nodes `K` form a forest, nothing holds the root, and cursor and links
stay among known nodes. Nodes that an edit detached stay known, so a cursor may go on standing on them.

An edit first plants the tree of its code beside the known nodes, where it is `Pending`, and then attaches parts
of it. `Evolved` says that the known nodes of before moved nowhere, and which links are new.
-/

namespace Graft

structure Sound (e : Editor) (K : Set NodeId) : Prop where
  arena : ∀ p, ∀ c ∈ e.store.children p, c.index < e.store.size
  inside : ∀ x ∈ K, x.index < e.store.size
  forest : Forest e.store.children K
  root : e.store.root ∈ K
  top : ∀ p, e.store.root ∉ e.store.children p
  links : ∀ c p, e.parents.get? c = some p → c ∈ K ∧ p ∈ K
  unlinked : e.parents.get? e.store.root = none
  current : e.current ∈ K

variable {e e' e'' : Editor} {B K K' K'' : Set NodeId} {w : NodeId} {ls rest : List NodeId}

/-! ## What changed -/

/-- No known node of `e'` holds a node of `B` that it did not hold, and a link of `e'` names the holder
unless it was there before, and its child in the same place. -/
structure Evolved (e e' : Editor) (B K K' : Set NodeId) : Prop where
  root : e'.store.root = e.store.root
  current : e'.current = e.current
  gained : ∀ p ∈ K', ∀ c ∈ B, c ∈ e'.store.children p → p ∈ K ∧ c ∈ e.store.children p
  kept : ∀ p ∈ K', ∀ c ∈ e'.store.children p, ∀ q, e'.parents.get? c = some q →
    q = p ∨ (p ∈ K ∧ c ∈ e.store.children p ∧ e.parents.get? c = some q)

namespace Evolved

theorem refl (e : Editor) (B : Set NodeId) (h : K' ⊆ K) : Evolved e e B K K' :=
  ⟨rfl, rfl, fun _ hp _ _ hc => ⟨h hp, hc⟩, fun _ hp _ hc _ hq => .inr ⟨h hp, hc, hq⟩⟩

theorem trans (h : Evolved e e' B K K') (h' : Evolved e' e'' B K' K'') : Evolved e e'' B K K'' where
  root := h'.root.trans h.root
  current := h'.current.trans h.current
  gained p hp c hB hc := by
    obtain ⟨hp', hc'⟩ := h'.gained p hp c hB hc
    exact h.gained p hp' c hB hc'
  kept p hp c hc q hq := by
    rcases h'.kept p hp c hc q hq with he | ⟨hp', hc', hq'⟩
    · exact .inl he
    · exact h.kept p hp' c hc' q hq'

end Evolved

/-- Known nodes that the root reaches were reached before, and a link of a reached node names the holder unless
it was there before. -/
structure Faithful (e e' : Editor) (K : Set NodeId) : Prop where
  root : e'.store.root = e.store.root
  reach : ∀ x ∈ K, Below e'.store.children e.store.root x → Below e.store.children e.store.root x
  kept : ∀ p, Below e'.store.children e.store.root p → ∀ c ∈ e'.store.children p, ∀ q, e'.parents.get? c = some q →
    q = p ∨ (p ∈ K ∧ c ∈ e.store.children p ∧ e.parents.get? c = some q)

theorem Evolved.faithful (h : Evolved e e' K K K') (hs : Sound e' K') : Faithful e e' K := by
  have known {x : NodeId} (hx : Below e'.store.children e.store.root x) : x ∈ K' :=
    hs.forest.below_mem (h.root ▸ hs.root) hx
  refine ⟨h.root, fun x hx hb => ?_, fun p hp => h.kept p (known hp)⟩
  induction hb with
  | refl => exact .refl _
  | tail hp hc ih =>
    obtain ⟨hp', hc'⟩ := h.gained _ (known hp) _ hx hc
    exact (ih hp').tail hc'

/-! ## Nodes that an edit is to attach -/

/-- The spare nodes `ls` and all below them are neither in `B` nor in any link. -/
structure Pending (e : Editor) (B K : Set NodeId) (w : NodeId) (ls : List NodeId) : Prop where
  sound : Sound e K
  spare : Spare e.store.children K w ls
  base : B ⊆ K
  root : e.store.root ∈ B
  current : e.current ∈ B
  fresh : ∀ ℓ ∈ ls, ∀ y, Below e.store.children ℓ y →
    y ∉ B ∧ e.parents.get? y = none ∧ ∀ c, e.parents.get? c ≠ some y

namespace Pending

theorem take (h : Pending e B K w ls) (hs : List.Subperm rest ls) : Pending e B K w rest :=
  { h with spare := h.spare.take hs, fresh := fun ℓ hℓ => h.fresh ℓ (hs.subset hℓ) }

/-- Spare for `w` if not above it. -/
theorem moved (h : Pending e B K w ls) {v : NodeId} (hv : v ∈ K) (above : ∀ ℓ ∈ ls, ¬ Below e.store.children ℓ v) :
    Pending e B K v ls :=
  { h with spare := ⟨h.spare.toTops, hv, above⟩ }

theorem at_kid (h : Pending e B K w ls) {v : NodeId} (hv : v ∈ e.store.children w) : Pending e B K v ls :=
  { h with spare := h.spare.at_kid hv }

/-- A planted forest is pending. -/
theorem planted (h : Sound e K) (hw : w ∈ K) {s : Store} {tops : List NodeId} (hp : e.store.Planted s tops) :
    Pending { e with store := s } K (K ∪ e.store.added s) w tops ∧
      Evolved e { e with store := s } K K (K ∪ e.store.added s) := by
  have agree (x : NodeId) (hx : x ∈ K) : s.children x = e.store.children x := hp.children (h.inside x hx)
  have apart (x : NodeId) (hx : x ∈ e.store.added s) : x ∉ K := fun hK => Nat.not_lt.2 hx.1 (h.inside x hK)
  have hspare : Spare s.children (K ∪ e.store.added s) w tops := by
    simpa using ((Spare.of_forest h.forest hw).congr agree).join hp.tops apart
  have nokey (x : NodeId) (hx : x ∈ e.store.added s) : e.parents.get? x = none := by
    cases hl : e.parents.get? x with
    | none => rfl
    | some p => exact absurd (h.links x p hl).1 (apart x hx)
  have holders (p : NodeId) (hK : p ∈ K ∪ e.store.added s) (c : NodeId) (hc : c ∈ s.children p) :
      (p ∈ K ∧ c ∈ e.store.children p) ∨ c ∈ e.store.added s := by
    rcases hK with hK | hF
    · exact .inl ⟨hK, agree p hK ▸ hc⟩
    · exact .inr (hp.tops.forest.closed p hF c hc)
  have hroot : s.root ∈ K := hp.root ▸ h.root
  -- What is planted is new: no known node holds any of it, and nothing is linked to or from it.
  refine ⟨⟨⟨?_, ?_, hspare.forest, .inl hroot, fun p hc => ?_, ?_, ?_, .inl h.current⟩, hspare, fun _ => .inl, hroot,
    h.current, ?_⟩, ⟨hp.root, rfl, ?_, ?_⟩⟩
  · exact hp.inside h.arena (by simp)
  · rintro x (hx | hx)
    · exact (h.inside x hx).trans_le hp.size
    · exact hx.2
  · simp only [hp.root] at hc
    rcases Nat.lt_or_ge p.index e.store.size with hlt | hge
    · exact h.top p (hp.children hlt ▸ hc)
    · exact (hp.holds p hge _ hc).elim (by simp) fun hr => apart _ hr h.root
  · exact fun c p hl => ⟨.inl (h.links c p hl).1, .inl (h.links c p hl).2⟩
  · exact hp.root ▸ h.unlinked
  · intro ℓ hℓ y hy
    have hF : y ∈ e.store.added s := hp.tops.forest.below_mem (hp.tops.loose ℓ hℓ).1 hy
    exact ⟨apart y hF, nokey y hF, fun c hl => apart y hF (h.links c y hl).2⟩
  · intro p hK c hB hc
    exact (holders p hK c hc).resolve_right fun hF => apart c hF hB
  · intro p hK c hc q hq
    rcases holders p hK c hc with ⟨hp', hc'⟩ | hF
    · exact .inr ⟨hp', hc', hq⟩
    · exact absurd hq (by simp [nokey c hF])

/-- A pending node that holds the parts of the code is left out, and frees what it held. -/
theorem opened {g : NodeId} (h : Pending e B K w (g :: ls)) :
    Pending e B (K \ {g}) w (e.store.children g ++ ls) ∧ Evolved e e B K (K \ {g}) := by
  obtain ⟨hgB, hgk, hgv⟩ := h.fresh g List.mem_cons_self g (.refl g)
  have stays {x : NodeId} (hK : x ∈ K) (hx : x ≠ g) : x ∈ K \ {g} := ⟨hK, hx⟩
  have inB {x : NodeId} (hx : x ∈ B) : x ≠ g := by
    rintro rfl
    exact hgB hx
  refine ⟨⟨⟨h.sound.arena, fun x hx => h.sound.inside x hx.1, h.spare.opened.forest, stays h.sound.root (inB h.root),
    h.sound.top, fun c p hl => ⟨stays (h.sound.links c p hl).1 ?_, stays (h.sound.links c p hl).2 ?_⟩,
    h.sound.unlinked, stays h.sound.current (inB h.current)⟩, h.spare.opened, fun x hx => stays (h.base hx) (inB hx),
    h.root, h.current, fun ℓ hℓ y hy => ?_⟩, .refl e B fun x hx => hx.1⟩
  · rintro rfl
    simp [hgk] at hl
  · rintro rfl
    exact hgv c hl
  · rcases List.mem_append.1 hℓ with hℓ | hℓ
    · exact h.fresh g List.mem_cons_self y ((Below.kid hℓ).trans hy)
    · exact h.fresh ℓ (List.mem_cons_of_mem _ hℓ) y hy

/-- The editor after a write to `w` and new links from nodes it holds now. -/
def attached (e : Editor) (w : NodeId) (n : Node NodeId) (linked : List NodeId) : Editor :=
  { e with store := e.store.set w n, parents := e.parents.linkAll linked w }

/-- A known node takes pending nodes beside those that it held. -/
theorem attach {n : Node NodeId} (h : Pending e B K w (ls ++ rest)) (linked : List NodeId) (hn : n.children.Nodup)
    (hcs : ∀ c ∈ n.children, c ∈ e.store.children w ∨ c ∈ ls) (hl : ∀ c ∈ linked, c ∈ n.children) :
    Pending (attached e w n linked) B K w rest ∧ Evolved e (attached e w n linked) B K K := by
  have hw : w.index < e.store.size := h.sound.inside w h.spare.mem
  have hkids : (attached e w n linked).store.children = Function.update e.store.children w n.children :=
    Store.children_set hw
  have hself : (attached e w n linked).store.children w = n.children := by rw [hkids, Function.update_self]
  have hother {p : NodeId} (hp : p ≠ w) : (attached e w n linked).store.children p = e.store.children p := by
    rw [hkids, Function.update_of_ne hp]
  have hlink (x : NodeId) : (attached e w n linked).parents.get? x = if x ∈ linked then some w else e.parents.get? x :=
    Parents.get?_linkAll ..
  have hspare : Spare (attached e w n linked).store.children K w rest := by
    rw [hkids]
    exact h.spare.write hn hcs
  have hold {c : NodeId} (hc : c ∈ n.children) (hB : c ∈ B) : c ∈ e.store.children w :=
    (hcs c hc).resolve_right fun hℓ => (h.fresh c (List.mem_append_left _ hℓ) c (.refl c)).1 hB
  have hroot : e.store.root ∉ n.children := fun hc => h.sound.top w (hold hc h.root)
  refine ⟨⟨⟨?_, ?_, hspare.forest, h.sound.root, ?_, ?_, ?_, h.sound.current⟩, hspare, h.base, h.root, h.current, ?_⟩,
    ⟨rfl, rfl, ?_, ?_⟩⟩
  · intro p c hc
    by_cases hp : p = w
    · rw [attached, Store.size_set]
      exact h.sound.inside c (hspare.forest.closed w h.spare.mem c (hp ▸ hc))
    · rw [attached, Store.size_set]
      exact h.sound.arena p c (hother hp ▸ hc)
  · intro x hx
    rw [attached, Store.size_set]
    exact h.sound.inside x hx
  · intro p hc
    by_cases hp : p = w
    · exact hroot (hself ▸ hp ▸ hc)
    · exact h.sound.top p (hother hp ▸ hc)
  · intro c p hcp
    rw [hlink] at hcp
    split at hcp
    · obtain rfl : w = p := by simpa using hcp
      exact ⟨hspare.forest.closed w h.spare.mem c (hself ▸ hl c ‹_›), h.spare.mem⟩
    · exact h.sound.links c p hcp
  · exact (hlink _).trans ((if_neg fun hr => hroot (hl _ hr)).trans h.sound.unlinked)
  -- what is still pending does not reach `w`, so it is left as it was
  · intro ℓ hℓ y hy
    have hmem : ℓ ∈ ls ++ rest := List.mem_append_right _ hℓ
    have hyn : y ∉ n.children := fun hc => (hspare.at_kid (hself ▸ hc)).above ℓ hℓ hy
    have hy' : Below e.store.children ℓ y := by
      rw [hkids] at hy
      exact hy.of_write (h.spare.above ℓ hmem)
    obtain ⟨hyB, hyk, hyv⟩ := h.fresh ℓ hmem y hy'
    refine ⟨hyB, ?_, fun c hc => ?_⟩
    · rw [hlink, if_neg fun hy => hyn (hl y hy)]
      exact hyk
    · rw [hlink] at hc
      split at hc
      · obtain rfl : w = y := by simpa using hc
        exact h.spare.above ℓ hmem hy'
      · exact hyv c hc
  · intro p hp c hB hc
    refine ⟨hp, ?_⟩
    by_cases hpw : p = w
    · rw [hpw] at hc ⊢
      exact hold (hself ▸ hc) hB
    · exact hother hpw ▸ hc
  -- a link of what `w` holds now is new, or it was there when `w` held it before
  · intro p hp c hc q hq
    rw [hlink] at hq
    split at hq
    · obtain rfl : w = q := by simpa using hq
      exact .inl (hspare.forest.holder w h.spare.mem p hp c (hself ▸ hl c ‹_›) hc)
    · refine .inr ⟨hp, ?_, hq⟩
      by_cases hpw : p = w
      · rw [hpw] at hc ⊢
        refine (hcs c (hself ▸ hc)).resolve_right fun hℓ => ?_
        simp [(h.fresh c (List.mem_append_left _ hℓ) c (.refl c)).2.1] at hq
      · exact hother hpw ▸ hc

theorem below_attached {n : Node NodeId} {linked : List NodeId} (h : Pending e B K w ls) {ℓ y : NodeId} (hℓ : ℓ ∈ ls)
    (hy : Below (attached e w n linked).store.children ℓ y) : Below e.store.children ℓ y := by
  rw [attached, Store.children_set (h.sound.inside w h.spare.mem)] at hy
  exact hy.of_write (h.spare.above ℓ hℓ)

end Pending
end Graft
