import Graft.Proofs.Syntax.Slots
import Graft.Proofs.Syntax.Store
/-!
# Nodes of a store that fit

`Store.slots` follows the children of a node together with their slots, and `Store.Fits` says that every node below another
one is allowed where it stands. Nodes to be placed below `w` have to be `Ready`: they fit, and `w` is not below them. A write
keeps what fits if the new node is allowed wherever the old one stood and holds ready nodes (`Fits.write`).
-/

namespace Graft

namespace Node

section Traverse
variable {α β : Type} {m : Type → Type} [Monad m] [LawfulMonad m] (f : α → m β)

/-- An action at a place leaves the slot. -/
def atPlace (p : α × Slot) : m (β × Slot) := (·, p.2) <$> f p.1

theorem traverseList_placed (σ : Slot) (as : List α) :
    traverseList (atPlace f) (placed σ as) = placed σ <$> traverseList f as := by
  induction as with
  | nil => simp [placed, traverseList]
  | cons a as ih =>
    have cons {γ : Type} (c : γ) (cs : List γ) : placed σ (c :: cs) = (c, σ) :: placed σ cs := rfl
    rw [cons, traverseList, ih]
    simp [traverseList, atPlace, cons]

/-- A traversal replaces what stands in the places, in order. -/
theorem places_traverse (σ : Slot) (n : Node α) : places σ <$> n.traverse f = traverseList (atPlace f) (n.places σ) := by
  cases n <;>
    simp [traverse, places, funcPlaces, classPlaces, traverseList, traverseFunc, traverseClass, traverseList_append,
      traverseList_placed, traverseList_toList, traverseList_holes, atPlace, -id_eq]

end Traverse

/-- What a node holds does not matter for where it may stand. -/
theorem allows_traverse {α β S : Type} (σ : Slot) (f : α → StateM S β) (n : Node α) (s : S) :
    σ.allows (n.traverse f s).1 = σ.allows n := by
  cases n with
  | variableDeclarator _ init => cases init <;> cases σ <;> rfl
  | literal value _ => cases value <;> cases σ <;> rfl
  | functionExpression g => rcases g with ⟨_ | _⟩ <;> cases σ <;> rfl
  | arrowFunctionExpression g => rcases g with ⟨_ | _⟩ <;> cases σ <;> rfl
  | _ => cases σ <;> rfl

end Node

namespace Store
variable {s s' : Store} {σ τ : Slot} {x w : NodeId} {n : Node NodeId} {held : List NodeId}

/-- The children of a node that stands in a slot, each with its own. -/
def slots (s : Store) (p : NodeId × Slot) : List (NodeId × Slot) := (s.get p.1).places p.2

/-- Every node below `x` is allowed where it stands, if `x` stands in the slot. -/
def Fits (s : Store) (σ : Slot) (x : NodeId) : Prop := ∀ q, Below s.slots (x, σ) q → q.2.allows (s.get q.1) = true

/-- No child number is out of range. -/
def Closed (s : Store) : Prop := ∀ p, ∀ c ∈ s.children p, c.index < s.size

/-! ## Slots -/

theorem mem_children_of_mem_slots {p q : NodeId × Slot} (h : q ∈ s.slots p) : q.1 ∈ s.children p.1 := by
  rw [children, ← Node.map_fst_places p.2]
  exact List.mem_map_of_mem h

theorem exists_mem_slots {p : NodeId × Slot} {c : NodeId} (h : c ∈ s.children p.1) : ∃ τ, (c, τ) ∈ s.slots p := by
  rw [children, ← Node.map_fst_places p.2] at h
  obtain ⟨⟨c', τ⟩, hq, rfl⟩ := List.mem_map.1 h
  exact ⟨τ, hq⟩

/-- A path through slots is a path through nodes. -/
theorem below_of_slots {p q : NodeId × Slot} (h : Below s.slots p q) : Below s.children p.1 q.1 := by
  induction h with
  | refl => exact .refl _
  | tail _ hq ih => exact ih.tail (mem_children_of_mem_slots hq)

theorem Closed.below (hs : s.Closed) {y : NodeId} (hx : x.index < s.size) (h : Below s.children x y) : y.index < s.size := by
  cases h with
  | refl => exact hx
  | tail _ hy => exact hs _ _ hy

section Agree
variable (agree : ∀ y, Below s.children x y → s'.get y = s.get y)
include agree

theorem slots_agree {σ : Slot} {q : NodeId × Slot} (h : Below s.slots (x, σ) q) : s'.slots q = s.slots q := by
  rw [slots, agree q.1 (below_of_slots h), slots]

theorem below_slots_agree {σ : Slot} {q : NodeId × Slot} : Below s'.slots (x, σ) q ↔ Below s.slots (x, σ) q :=
  Below.agree_iff fun _ hy => slots_agree agree hy

theorem below_children_agree {y : NodeId} : Below s'.children x y ↔ Below s.children x y :=
  Below.agree_iff fun y hy => by rw [children, agree y hy, children]

theorem Fits.transfer (h : s.Fits σ x) : s'.Fits σ x := by
  intro q hq
  rw [below_slots_agree agree] at hq
  rw [agree q.1 (below_of_slots hq)]
  exact h q hq

end Agree

/-! ## Nodes that fit -/

namespace Fits

theorem allows (h : s.Fits σ x) : σ.allows (s.get x) = true := h (x, σ) (.refl _)

theorem below {p : NodeId × Slot} (h : s.Fits σ x) (hp : Below s.slots (x, σ) p) : s.Fits p.2 p.1 :=
  fun q hq => h q (hp.trans hq)

theorem kid {p : NodeId × Slot} (h : s.Fits σ x) (hp : p ∈ s.slots (x, σ)) : s.Fits p.2 p.1 := h.below (.kid hp)

theorem mk (ha : σ.allows (s.get x) = true) (hk : ∀ p ∈ s.slots (x, σ), s.Fits p.2 p.1) : s.Fits σ x := by
  intro q hq
  rcases Relation.ReflTransGen.cases_head hq with rfl | ⟨p, hp, hpq⟩
  · exact ha
  · exact hk p hp q hpq

/-- A node may stand in another slot that allows it and asks the same of what is below. -/
theorem move (h : s.Fits σ x) (ha : τ.allows (s.get x) = true) (hp : (s.get x).places τ = (s.get x).places σ) : s.Fits τ x :=
  .mk ha fun _ hq => h.kid (show _ ∈ (s.get x).places σ from hp ▸ hq)

theorem ofExpression (h : s.Fits .expression x) (hτ : τ.takesExpression = true) : s.Fits τ x :=
  h.move (Slot.allows_of_isExpression hτ h.allows) (Node.places_congr _ _ (.inl h.allows))

theorem ofMethod (h : s.Fits .method x) : s.Fits .expression x :=
  h.move (Node.expression_of_method h.allows).1 (Node.expression_of_method h.allows).2

theorem ofBlock (h : s.Fits .block x) : s.Fits .arrowBody x :=
  h.move (Node.arrowBody_of_block h.allows).1 (Node.arrowBody_of_block h.allows).2

/-- The body of an arrow is a block or an expression. -/
theorem arrowBody (h : s.Fits .arrowBody x) :
    ((s.get x).isBlock = true ∧ s.Fits .block x) ∨ ((s.get x).isBlock = false ∧ s.Fits .expression x) :=
  (Node.of_arrowBody h.allows).imp (fun hb => ⟨hb.1, h.move hb.1 hb.2⟩) fun he => ⟨he.1, h.move he.2.1 he.2.2⟩

end Fits

/-! ## Writing -/

/-- A node that fits and that `w` is not below. -/
structure Ready (s : Store) (w : NodeId) (σ : Slot) (x : NodeId) : Prop where
  inside : x.index < s.size
  above : ¬ Below s.children x w
  fits : s.Fits σ x

theorem Ready.kid (h : s.Ready w σ x) (hs : s.Closed) {p : NodeId × Slot} (hp : p ∈ s.slots (x, σ)) : s.Ready w p.2 p.1 :=
  have hc := mem_children_of_mem_slots hp
  ⟨hs _ _ hc, fun hb => h.above ((Below.kid hc).trans hb), h.fits.kid hp⟩

/-- After a write, all that is below a node was there before or is ready. -/
theorem Fits.write (h : s.Fits σ x) (hw : w.index < s.size)
    (hn : ∀ τ, Below s.slots (x, σ) (w, τ) → τ.allows n = true ∧ ∀ p ∈ n.places τ, s.Ready w p.2 p.1) :
    (s.set w n).Fits σ x := by
  -- a slot below is one that was there, or one below a node that is ready, where nothing changes
  have place (q : NodeId × Slot) (hq : Below (s.set w n).slots (x, σ) q) :
      Below s.slots (x, σ) q ∨ (¬ Below s.children q.1 w ∧ s.Fits q.2 q.1) := by
    induction hq with
    | refl => exact .inl (.refl _)
    | @tail p q _ hq ih =>
      obtain ⟨y, τ⟩ := p
      by_cases hy : y = w
      · cases hy
        replace hq : q ∈ n.places τ := by rwa [slots, get_set_self hw] at hq
        rcases ih with ih | ih
        · exact .inr ⟨((hn τ ih).2 q hq).above, ((hn τ ih).2 q hq).fits⟩
        · exact absurd (.refl _) ih.1
      · replace hq : q ∈ s.slots (y, τ) := by rwa [slots, get_set_of_ne hy] at hq
        rcases ih with ih | ih
        · exact .inl (ih.tail hq)
        · exact .inr ⟨fun hb => ih.1 ((Below.kid (mem_children_of_mem_slots hq)).trans hb), ih.2.kid hq⟩
  rintro ⟨y, τ⟩ hy
  by_cases hyw : y = w
  · cases hyw
    rw [get_set_self hw]
    exact (place _ hy).elim (fun hb => (hn τ hb).1) fun hr => absurd (.refl _) hr.1
  · rw [get_set_of_ne hyw]
    exact (place _ hy).elim (h _) fun hr => hr.2.allows

/-- A write above which nothing stands that was there. -/
theorem Fits.write_aside (h : s.Fits σ x) (hw : w.index < s.size) (hx : ¬ Below s.children x w) : (s.set w n).Fits σ x :=
  h.write hw fun _ hb => absurd (below_of_slots hb) hx

/-- The way to a node goes not through it. -/
theorem below_slots_set (acyclic : ∀ c ∈ s.children w, ¬ Below s.children c w) {p : NodeId × Slot}
    (h : Below s.slots p (w, τ)) : Below (s.set w n).slots p (w, τ) := by
  induction h using Relation.ReflTransGen.head_induction_on with
  | refl => exact .refl _
  | @head p q hq hqw ih =>
    refine Relation.ReflTransGen.head ?_ ih
    have hp : p.1 ≠ w := fun he => acyclic q.1 (he ▸ mem_children_of_mem_slots hq) (below_of_slots hqw)
    rwa [slots, get_set_of_ne hp]

/-! ## New slots -/

section Alloc
variable (hs : s.Closed)
include hs

theorem get_alloc_below {y : NodeId} (hx : x.index < s.size) (hy : Below s.children x y) : (s.alloc n).2.get y = s.get y :=
  get_alloc_of_lt (hs.below hx hy)

theorem Closed.alloc (hn : ∀ c ∈ n.children, c.index < s.size) : (s.alloc n).2.Closed := by
  intro p c hc
  rw [size_alloc]
  rw [children_alloc] at hc
  by_cases hp : p = (s.alloc n).1
  · rw [hp, Function.update_self] at hc
    exact (hn c hc).trans (Nat.lt_succ_self _)
  · rw [Function.update_of_ne hp] at hc
    exact (hs p c hc).trans (Nat.lt_succ_self _)

theorem Ready.alloc (h : s.Ready w σ x) : (s.alloc n).2.Ready w σ x := by
  have agree (y : NodeId) (hy : Below s.children x y) := get_alloc_below (n := n) hs h.inside hy
  refine ⟨?_, fun hb => h.above ((below_children_agree agree).1 hb), h.fits.transfer agree⟩
  rw [size_alloc]
  exact h.inside.trans (Nat.lt_succ_self _)

/-- A new node that holds ready nodes is ready. -/
theorem Ready.new (hw : w.index < s.size) (ha : σ.allows n = true) (hn : ∀ p ∈ n.places σ, s.Ready w p.2 p.1) :
    (s.alloc n).2.Ready w σ (s.alloc n).1 := by
  have hget : (s.alloc n).2.get (s.alloc n).1 = n := get_alloc_self
  refine ⟨by rw [index_alloc, size_alloc]; exact Nat.lt_succ_self _, fun hb => ?_, .mk (by rwa [hget]) fun p hp => ?_⟩
  · rcases Relation.ReflTransGen.cases_head hb with rfl | ⟨c, hc, hcw⟩
    · rw [index_alloc] at hw
      exact Nat.lt_irrefl _ hw
    · obtain ⟨υ, hυ⟩ := exists_mem_slots (p := ((s.alloc n).1, σ)) hc
      exact ((hn (c, υ) (by rwa [slots, hget] at hυ)).alloc hs).above hcw
  · exact ((hn p (by rwa [slots, hget] at hp)).alloc hs).fits

end Alloc

/-! ## Trees in new slots -/

/-- More slots leave alone what is below a node. -/
theorem Fits.grown (h : s.Fits σ x) (hx : ∀ y, Below s.children x y → y.index < s.size) (hs' : Extends s s' held) :
    s'.Fits σ x := h.transfer fun y hy => hs'.get y (hx y hy)

theorem Planted.below {tops : List NodeId} (h : Planted s s' tops) {ℓ y : NodeId} (hℓ : ℓ ∈ tops)
    (hy : Below s'.children ℓ y) : y.index < s'.size := (h.tops.forest.below_mem (h.tops.loose ℓ hℓ).1 hy).2

/-- Trees planted at places. -/
theorem traversePlaces_fits (ps : List (Tree × Slot)) (h : ∀ p ∈ ps, ∀ s : Store, (s.insert p.1).2.Fits p.2 (s.insert p.1).1)
    (s : Store) : ∃ s' qs, Node.traverseList (Node.atPlace (Tree.fold insertNode)) ps s = (qs, s') ∧
      Planted s s' (qs.map Prod.fst) ∧ ∀ q ∈ qs, s'.Fits q.2 q.1 := by
  induction ps generalizing s with
  | nil => exact ⟨s, [], rfl, .refl s, by simp⟩
  | cons p ps ih =>
    obtain ⟨s', qs, heq, hplanted, hfits⟩ := ih (fun q hq => h q (List.mem_cons_of_mem _ hq)) (s.insert p.1).2
    have hfirst := insert_planted p.1 s
    refine ⟨s', ((s.insert p.1).1, p.2) :: qs, ?_, hfirst.trans hplanted, fun q hq => ?_⟩
    · have rest := congrArg (fun r => ((((s.insert p.1).1, p.2) :: r.1, r.2) : List (NodeId × Slot) × Store)) heq
      exact rest
    · rcases List.mem_cons.1 hq with rfl | hq
      · exact (h p List.mem_cons_self s).grown (fun y hy => hfirst.below List.mem_cons_self hy) hplanted.toExtends
      · exact hfits q hq

/-- The top of a planted tree is the tree's, its children replaced. -/
theorem insert_mk (n : Node Tree) (s : Store) :
    s.insert (.mk n) = (n.traverse (Tree.fold insertNode) s).2.alloc (n.traverse (Tree.fold insertNode) s).1 := by
  obtain ⟨n', hfold, htr⟩ := Tree.fold_mk insertNode n
  rw [insert, hfold, insertNode, htr]
  rfl

/-- Planting does not change where the top of a tree may stand. -/
theorem allows_insert (σ : Slot) (t : Tree) (s : Store) :
    σ.allows ((s.insert t).2.get (s.insert t).1) = σ.allows t.node := by
  obtain ⟨n⟩ := t
  rw [insert_mk, get_alloc_self, Node.allows_traverse]
  rfl

/-- A tree that fits is planted so that its top fits. -/
theorem insert_fits {t : Tree} (h : Tree.Fits σ t) (s : Store) : (s.insert t).2.Fits σ (s.insert t).1 := by
  induction t using Tree.induct generalizing σ s with
  | mk n ih =>
    obtain ⟨ha, hk⟩ := Tree.Fits.iff_mk.1 h
    have hplaces : ∀ p ∈ n.places σ, ∀ s : Store, (s.insert p.1).2.Fits p.2 (s.insert p.1).1 := by
      intro p hp s
      refine ih p.1 ?_ (hk p hp) s
      rw [← Node.map_fst_places σ]
      exact List.mem_map_of_mem hp
    obtain ⟨s₁, qs, heq, hplanted, hfits⟩ := traversePlaces_fits (n.places σ) hplaces s
    obtain ⟨m, hm⟩ : ∃ m, (n.traverse (Tree.fold insertNode) s).1 = m := ⟨_, rfl⟩
    have htraverse := congrFun (Node.places_traverse (Tree.fold insertNode) σ n) s
    rw [heq] at htraverse
    have hplaces : m.places σ = qs := hm ▸ congrArg Prod.fst htraverse
    have hstore : (n.traverse (Tree.fold insertNode) s).2 = s₁ := congrArg Prod.snd htraverse
    refine .mk ((allows_insert σ (.mk n) s).trans ha) fun p hp => ?_
    rw [insert_mk, hm, hstore] at hp ⊢
    rw [slots, get_alloc_self, hplaces] at hp
    exact (hfits p hp).grown (fun y hy => hplanted.below (List.mem_map_of_mem hp) hy) (.alloc s₁ m)

theorem insertAll_fits {ts : List Tree} (h : ∀ t ∈ ts, Tree.Fits σ t) (s : Store) :
    ∀ x ∈ (s.insertAll ts).1, (s.insertAll ts).2.Fits σ x := by
  induction ts with
  | nil => simp [insertAll]
  | cons t ts ih =>
    intro x hx
    have hrest := insertAll_planted ts s
    have hfirst := insert_planted t (s.insertAll ts).2
    rcases List.mem_cons.1 (show x ∈ ((s.insertAll ts).2.insert t).1 :: (s.insertAll ts).1 from hx) with rfl | hx
    · exact insert_fits (h t List.mem_cons_self) _
    · exact (ih (fun u hu => h u (List.mem_cons_of_mem _ hu)) x hx).grown (fun y hy => hrest.below hx hy) hfirst.toExtends

end Store
end Graft
