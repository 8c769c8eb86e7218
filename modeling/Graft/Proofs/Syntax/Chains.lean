import Graft.Source.State
import Graft.Proofs.Syntax.Slots
import Graft.Proofs.Syntax.Mapping
/-!
# Optional chains

A member access goes on from its object and a call from its callee: these are the `Node.spine`. An optional link cuts a whole
chain short, up to the `ChainExpression` that closes it off (`Node.chained`). All other children are `Node.free`, and a free child
must not be open, or its chain would go on over an end that the source gave it. `Node.Closes` says so of one node, `Tree.Sealed`
of a tree.
-/

namespace Graft

namespace Node
variable {α β : Type} {n : Node α} {p q : α → Prop} {c : α}

/-- What a chain goes on from: the object of a member access, the callee of a call. -/
def spine : Node α → List α
  | .memberExpression object .. => [object]
  | .callExpression callee .. => [callee]
  | _ => []

/-- The chain that is closed off here. -/
def chained : Node α → List α
  | .chainExpression e => [e]
  | _ => []

/-- The children that are part of no chain of their parent. -/
def free : Node α → List α
  | .memberExpression _ member _ _ => [member]
  | .callExpression _ arguments _ => arguments
  | .chainExpression _ => []
  | n => n.children

/-- A link that cuts the chain short where there is nothing to go on from. -/
def isOptional : Node α → Bool
  | .memberExpression _ _ _ optional => optional
  | .callExpression _ _ optional => optional
  | _ => false

/-- A member access or a call. -/
def isLink : Node α → Bool
  | .memberExpression .. | .callExpression .. => true
  | _ => false

/-- No link of a chain and no end of one. -/
def isUnchained : Node α → Bool
  | .memberExpression .. | .callExpression .. | .chainExpression _ => false
  | _ => true

theorem mem_children_iff : c ∈ n.children ↔ c ∈ n.spine ∨ c ∈ n.chained ∨ c ∈ n.free := by
  cases n <;> simp [spine, chained, free, children, fields]

theorem spine_eq_nil (h : n.isUnchained = true) : n.spine = [] := by
  cases n <;> first | rfl | cases h

theorem chained_eq_nil (h : n.isUnchained = true) : n.chained = [] := by
  cases n <;> first | rfl | cases h

theorem free_eq_children (h : n.isUnchained = true) : n.free = n.children := by
  cases n <;> first | rfl | cases h

theorem isOptional_eq_false (h : n.isUnchained = true) : n.isOptional = false := by
  cases n <;> first | rfl | cases h

theorem isUnchained_of_func {f : Func α} (h : n.func? = some f) :
    n.isUnchained = true ∧ ∀ g, (n.withFunc g).isUnchained = true := by
  cases n <;> first | exact ⟨rfl, fun _ => rfl⟩ | cases h

theorem isUnchained_of_statements {statements : List α} (h : n.statements? = some statements) :
    n.isUnchained = true ∧ ∀ as, (n.withStatements as).isUnchained = true := by
  cases n <;> first | exact ⟨rfl, fun _ => rfl⟩ | cases h

/-- An optional link, or one that goes on from what is open. -/
def Opens (p : α → Prop) (n : Node α) : Prop := n.isOptional = true ∨ ∃ c ∈ n.spine, p c

/-- Of the children, given which are open, the chain that ends here is open and the free ones are not. -/
structure Closes (p : α → Prop) (n : Node α) : Prop where
  free : ∀ c ∈ n.free, ¬ p c
  chained : ∀ c ∈ n.chained, p c

theorem isLink_of_opens (h : n.Opens p) : n.isLink = true := by
  cases n with
  | memberExpression => rfl
  | callExpression => rfl
  | _ => rcases h with ho | ⟨c, hc, -⟩ <;> contradiction

theorem not_opens (h : n.isUnchained = true) : ¬ n.Opens p := by
  rintro (ho | ⟨c, hc, -⟩)
  · rw [isOptional_eq_false h] at ho
    cases ho
  · rw [spine_eq_nil h] at hc
    cases hc

theorem closes_iff (h : n.isUnchained = true) : n.Closes p ↔ ∀ c ∈ n.children, ¬ p c := by
  rw [← free_eq_children h]
  refine ⟨Closes.free, fun hfree => ⟨hfree, ?_⟩⟩
  rw [chained_eq_nil h]
  nofun

theorem opens_congr (h : ∀ c ∈ n.children, p c ↔ q c) : n.Opens p ↔ n.Opens q :=
  or_congr_right (exists_congr fun c => and_congr_right fun hc => h c (mem_children_iff.2 (.inl hc)))

theorem closes_congr (h : ∀ c ∈ n.children, p c ↔ q c) (hn : n.Closes p) : n.Closes q where
  free c hc := by
    rw [← h c (mem_children_iff.2 (.inr (.inr hc)))]
    exact hn.free c hc
  chained c hc := (h c (mem_children_iff.2 (.inr (.inl hc)))).1 (hn.chained c hc)

section Map
variable (f : α → β) {p : β → Prop}

theorem isOptional_map (n : Node α) : (n.map f).isOptional = n.isOptional := by
  cases n <;> rfl

theorem spine_map (n : Node α) : (n.map f).spine = n.spine.map f := by
  cases n <;> rfl

theorem chained_map (n : Node α) : (n.map f).chained = n.chained.map f := by
  cases n <;> rfl

theorem free_map (n : Node α) : (n.map f).free = n.free.map f := by
  cases hn : n.isUnchained with
  | true =>
    have hm : (n.map f).isUnchained = true := by cases n <;> first | rfl | cases hn
    rw [free_eq_children hn, free_eq_children hm, children_map]
  | false =>
    cases n with
    | callExpression callee arguments optional =>
      have list := traverseList_pure (fun a => (rfl : (pure (f a) : Id β) = _)) arguments
      simp [map, traverse, free, list]
    | _ => first | rfl | cases hn

theorem opens_map (n : Node α) : (n.map f).Opens p ↔ n.Opens fun a => p (f a) := by
  rw [Opens, Opens, isOptional_map, spine_map]
  simp

theorem closes_map (n : Node α) : (n.map f).Closes p ↔ n.Closes fun a => p (f a) := by
  constructor
  · intro h
    refine ⟨fun c hc => h.free _ ?_, fun c hc => h.chained _ ?_⟩
    · rw [free_map]
      exact List.mem_map_of_mem hc
    · rw [chained_map]
      exact List.mem_map_of_mem hc
  · intro h
    constructor
    · intro c hc
      rw [free_map] at hc
      obtain ⟨a, ha, rfl⟩ := List.mem_map.1 hc
      exact h.free a ha
    · intro c hc
      rw [chained_map] at hc
      obtain ⟨a, ha, rfl⟩ := List.mem_map.1 hc
      exact h.chained a ha

end Map

end Node

namespace Tree
variable {t : Tree} {σ τ : Slot}

theorem isOpenChain_iff (t : Tree) : t.isOpenChain = true ↔ t.node.Opens fun c => c.isOpenChain = true := by
  obtain ⟨n⟩ := t
  cases n <;> simp [isOpenChain, node, Node.Opens, Node.isOptional, Node.spine]

/-- Every node of the tree closes the chains below it off. -/
inductive Sealed : Tree → Prop
  | mk {n : Node Tree} (closes : n.Closes fun c => c.isOpenChain = true) (children : ∀ c ∈ n.children, Sealed c) : Sealed (.mk n)

namespace Sealed

theorem closes {n : Node Tree} (h : Sealed (.mk n)) : n.Closes fun c => c.isOpenChain = true := by
  cases h with
  | mk closes _ => exact closes

theorem children {n : Node Tree} (h : Sealed (.mk n)) : ∀ c ∈ n.children, Sealed c := by
  cases h with
  | mk _ children => exact children

theorem kids {n : Node Tree} (h : Sealed (.mk n)) (hn : n.isUnchained = true) :
    ∀ c ∈ n.children, c.Sealed ∧ c.isOpenChain = false := by
  intro c hc
  refine ⟨h.children c hc, ?_⟩
  rw [← Bool.not_eq_true]
  exact (Node.closes_iff hn).1 h.closes c hc

/-- The end of a chain seals it. -/
theorem closeChain (h : Sealed t) : Sealed t.closeChain ∧ t.closeChain.isOpenChain = false := by
  rw [Tree.closeChain]
  split
  next ho =>
    refine ⟨.mk ⟨nofun, ?_⟩ ?_, rfl⟩
    · simpa [Node.chained] using ho
    · simpa [Node.children, Node.fields] using h
  next ho => exact ⟨h, by simpa using ho⟩

end Sealed

/-- The tree fits the slot, and all chains in it are closed off. -/
structure Fills (σ : Slot) (t : Tree) : Prop where
  fits : Fits σ t
  sealed : t.Sealed
  closed : t.isOpenChain = false

/-- An expression whose chain may go on. -/
structure Chained (t : Tree) : Prop where
  fits : Fits .expression t
  sealed : t.Sealed

namespace Fills

theorem node {n : Node Tree} (ha : σ.allows n = true) (hn : n.isUnchained = true) (h : ∀ p ∈ n.places σ, Fills p.2 p.1) :
    Fills σ (.mk n) := by
  have kids : ∀ c ∈ n.children, c.Sealed ∧ c.isOpenChain = false := by
    intro c hc
    rw [← Node.map_fst_places σ] at hc
    obtain ⟨p, hp, rfl⟩ := List.mem_map.1 hc
    exact ⟨(h p hp).sealed, (h p hp).closed⟩
  refine ⟨.mk ha fun p hp => (h p hp).fits, .mk ?_ fun c hc => (kids c hc).1, ?_⟩
  · rw [Node.closes_iff hn]
    intro c hc
    simp [(kids c hc).2]
  · have hopen := (isOpenChain_iff (.mk n)).not.2 (Node.not_opens hn)
    simpa using hopen

theorem chained (h : Fills .expression t) : t.Chained := ⟨h.fits, h.sealed⟩

theorem allows (h : Fills σ t) : σ.allows t.node = true := h.fits.allows

theorem move (h : Fills σ t) (ht : τ.allows t.node = true) (hp : t.node.places τ = t.node.places σ) : Fills τ t :=
  ⟨h.fits.move ht hp, h.sealed, h.closed⟩

theorem ofExpression (h : Fills .expression t) (hτ : τ.takesExpression = true) : Fills τ t :=
  ⟨h.fits.ofExpression hτ, h.sealed, h.closed⟩

theorem ofPattern (h : Fills .pattern t) (hτ : τ.takesPattern = true) : Fills τ t := ⟨h.fits.ofPattern hτ, h.sealed, h.closed⟩

theorem ofTarget (h : Fills .target t) : Fills .loopTarget t := ⟨h.fits.ofTarget, h.sealed, h.closed⟩

theorem ofMethod (h : Fills .method t) : Fills .expression t := ⟨h.fits.ofMethod, h.sealed, h.closed⟩

end Fills

namespace Chained

/-- A member access goes on from a chain. -/
theorem member {object member : Tree} {computed optional : Bool} (ho : object.Chained)
    (hm : Fills (if computed then .expression else .memberName) member) :
    (Tree.mk (.memberExpression object member computed optional)).Chained := by
  have hfits := ho.fits
  have hmfits := hm.fits
  refine ⟨.mk rfl (by grind [Node.places]), .mk ⟨?_, nofun⟩ ?_⟩
  · simpa [Node.free] using hm.closed
  · simpa [Node.children, Node.fields] using ⟨ho.sealed, hm.sealed⟩

/-- So does a call. -/
theorem call {callee : Tree} {arguments : List Tree} {optional : Bool} (hc : callee.Chained)
    (ha : ∀ t ∈ arguments, Fills .item t) : (Tree.mk (.callExpression callee arguments optional)).Chained := by
  have hfits := hc.fits
  have hafits : ∀ t ∈ arguments, Fits .item t := fun t ht => (ha t ht).fits
  refine ⟨.mk rfl (by grind [Node.places]), .mk ⟨?_, nofun⟩ ?_⟩
  · intro t ht
    simp [(ha t ht).closed]
  · simpa [Node.children, Node.fields] using ⟨hc.sealed, fun t ht => (ha t ht).sealed⟩

theorem closeChain (h : t.Chained) : Fills .expression t.closeChain := by
  refine ⟨?_, h.sealed.closeChain.1, h.sealed.closeChain.2⟩
  rw [Tree.closeChain]
  split
  next => exact .mk rfl (by simpa [Node.places] using h.fits)
  next => exact h.fits

end Chained

end Tree
end Graft
