import Graft.Proofs.Edit.Steps
import Graft.Proofs.Edit.Overlay
/-!
# Firm slots

A member of an object literal is a property or a spread, and what a method or an accessor holds is a function. Both slots are firm:
a node that stands in one is only ever written over with a node that may stand there too. So in every slot of a store, reached or not,
what a node asks of its children there holds throughout a run (`Editing.run_firm`), misplaced values elsewhere or not.
-/

namespace Graft

/-- Members of object literals, and the functions of methods and accessors. -/
def Slot.isFirm (σ : Slot) : Bool := σ = .member || σ = .method

namespace Node
variable {α β : Type} {σ τ : Slot} {n : Node α} {c : α}

/-- The children that stand in a firm slot. -/
def firmly (σ : Slot) : Node α → List α
  | .objectExpression properties => if σ = .member then properties else []
  | .property _ value kind _ _ method => if σ = .method && !(kind = .init && !method) then [value] else []
  | .methodDefinition _ value .. => if σ = .method then [value] else []
  | _ => []

/-- Nodes that may have such children. -/
def hasFirm : Node α → Bool
  | .objectExpression _ | .property .. | .methodDefinition .. => true
  | _ => false

theorem firmly_eq_nil (hn : n.hasFirm = false) : n.firmly σ = [] := by
  cases n <;> first | rfl | cases hn

/-- Where a node may stand, its children in firm slots are in the places for them. -/
theorem mem_places_of_firmly (ha : τ.allows n = true) (h : c ∈ n.firmly σ) : (c, σ) ∈ n.places τ := by
  cases n with
  | objectExpression properties =>
    rw [firmly] at h
    split at h
    next hσ => simp [places, hσ, h]
    next => cases h
  | property key value kind computed shorthand method =>
    rw [firmly] at h
    split at h
    next hσ =>
      obtain ⟨hσ, hk⟩ := Bool.and_eq_true_iff.1 hσ
      obtain rfl := of_decide_eq_true hσ
      obtain rfl := List.mem_singleton.1 h
      -- in a pattern every property is plain
      have hτ : τ ≠ .patternMember := by
        rintro rfl
        have hplain : (kind = .init && !method) = true := by simpa [Slot.allows, isPlainProperty, isVerbatim] using ha
        rw [hplain] at hk
        cases hk
      have hvalue : τ.value kind method = .method := by
        rw [Bool.not_eq_true'] at hk
        rw [Slot.value, if_neg hτ, hk]
        rfl
      simp [places, hvalue]
    next => cases h
  | methodDefinition key value kind computed isStatic =>
    rw [firmly] at h
    split at h
    next hσ =>
      obtain rfl := List.mem_singleton.1 h
      simp [places, hσ]
    next => cases h
  | _ => cases h

theorem mem_children_of_firmly (h : c ∈ n.firmly σ) : c ∈ n.children := by
  cases n with
  | objectExpression properties =>
    rw [firmly] at h
    split at h
    next => rwa [children_objectExpression]
    next => cases h
  | property key value kind computed shorthand method =>
    rw [firmly] at h
    split at h
    next =>
      obtain rfl := List.mem_singleton.1 h
      simp
    next => cases h
  | methodDefinition key value kind computed isStatic =>
    rw [firmly] at h
    split at h
    next =>
      obtain rfl := List.mem_singleton.1 h
      simp [children, fields]
    next => cases h
  | _ => cases h

theorem firmly_map (f : α → β) (n : Node α) : (n.map f).firmly σ = (n.firmly σ).map f := by
  cases n with
  | objectExpression properties =>
    rw [map_objectExpression, firmly, firmly]
    split <;> rfl
  | property key value kind computed shorthand method =>
    change (if _ then [f value] else []) = List.map f (if _ then [value] else [])
    split <;> rfl
  | methodDefinition key value kind computed isStatic =>
    change (if _ then [f value] else []) = List.map f (if _ then [value] else [])
    split <;> rfl
  | _ => rfl

theorem allows_map (hσ : σ.isFirm = true) (f : α → β) (n : Node α) : σ.allows (n.map f) = σ.allows n := by
  cases σ with
  | member => cases n <;> rfl
  | method =>
    cases n with
    | functionExpression g =>
      obtain ⟨id, params, body, isAsync, generator⟩ := g
      cases id <;> rfl
    | _ => rfl
  | _ => cases hσ

/-- No more children in firm slots, and no other place to stand. -/
structure Alike (σ : Slot) (n n' : Node α) : Prop where
  allows : σ.allows n' = σ.allows n
  firmly : n'.firmly σ ⊆ n.firmly σ

theorem alike_withStatements (hσ : σ.isFirm = true) (n : Node α) (statements : List α) :
    Alike σ n (n.withStatements statements) := by
  cases σ with
  | member => cases n <;> exact ⟨rfl, List.Subset.refl _⟩
  | method => cases n <;> exact ⟨rfl, List.Subset.refl _⟩
  | _ => cases hσ

theorem alike_withFunc {n : Node NodeId} {f g : Func NodeId} (hf : n.func? = some f) (hid : g.id = f.id) (σ : Slot) :
    Alike σ n (n.withFunc g) := by
  refine ⟨Editor.allows_withFunc hf hid σ, ?_⟩
  cases n <;> exact List.Subset.refl _

end Node

namespace Tree
variable {σ τ : Slot} {t : Tree}

/-- What stands in the firm slot is allowed there, throughout the tree. -/
inductive Firm (σ : Slot) : Tree → Prop
  | mk {n : Node Tree} (firmly : ∀ c ∈ n.firmly σ, σ.allows c.node = true) (children : ∀ c ∈ n.children, Firm σ c) : Firm σ (.mk n)

theorem Firm.firmly {n : Node Tree} (h : Firm σ (.mk n)) : ∀ c ∈ n.firmly σ, σ.allows c.node = true := by
  cases h with
  | mk firmly _ => exact firmly

theorem Firm.children {n : Node Tree} (h : Firm σ (.mk n)) : ∀ c ∈ n.children, Firm σ c := by
  cases h with
  | mk _ children => exact children

theorem Fits.firm (h : Fits τ t) (σ : Slot) : Firm σ t := by
  induction h with
  | @mk τ n hallows hplaces ih =>
    constructor
    · intro c hc
      exact (hplaces (c, σ) (Node.mem_places_of_firmly hallows hc)).allows
    · intro c hc
      rw [← Node.map_fst_places τ] at hc
      obtain ⟨p, hp, rfl⟩ := List.mem_map.1 hc
      exact ih p hp

end Tree

namespace Store

variable {s s' : Store} {n : Node NodeId} {w x : NodeId} {σ : Slot}

/-- What stands in the firm slot is allowed there, in all slots of the store. -/
def Firm (σ : Slot) (s : Store) : Prop := ∀ x, ∀ c ∈ (s.get x).firmly σ, σ.allows (s.get c) = true

theorem inside_of_firm (hσ : σ.isFirm = true) (h : σ.allows (s.get x) = true) : x.index < s.size := by
  by_contra hge
  rw [get_of_size_le (Nat.le_of_not_lt hge)] at h
  cases σ with
  | member => cases h
  | method => cases h
  | _ => cases hσ

/-- A write that keeps what may stand in the slot. -/
theorem allows_set (hσ : σ.isFirm = true) (hkeep : σ.allows (s.get w) = true → σ.allows n = true)
    (hx : σ.allows (s.get x) = true) : σ.allows ((s.set w n).get x) = true := by
  by_cases he : x = w
  · subst he
    rw [get_set_self (inside_of_firm hσ hx)]
    exact hkeep hx
  · rwa [get_set_of_ne he]

namespace Firm

theorem empty : Store.empty.Firm σ := by
  intro x c hc
  rw [get_of_size_le (Nat.zero_le _)] at hc
  cases hc

theorem set (h : s.Firm σ) (hσ : σ.isFirm = true) (hkeep : σ.allows (s.get w) = true → σ.allows n = true)
    (hn : ∀ c ∈ n.firmly σ, σ.allows (s.get c) = true) : (s.set w n).Firm σ := by
  intro x c hc
  apply allows_set hσ hkeep
  by_cases he : x = w
  · subst he
    rcases Nat.lt_or_ge x.index s.size with hlt | hge
    · rw [get_set_self hlt] at hc
      exact hn c hc
    · rw [get_of_size_le (size_set.trans_le hge)] at hc
      cases hc
  · rw [get_set_of_ne he] at hc
    exact h x c hc

theorem set_alike (h : s.Firm σ) (hσ : σ.isFirm = true) (hn : (s.get w).Alike σ n) : (s.set w n).Firm σ :=
  h.set hσ (fun hm => hn.allows.trans hm) fun c hc => h w c (hn.firmly hc)

theorem alloc (h : s.Firm σ) (hσ : σ.isFirm = true) (hn : ∀ c ∈ n.firmly σ, σ.allows (s.get c) = true) :
    (s.alloc n).2.Firm σ := by
  have still {m : NodeId} (hm : σ.allows (s.get m) = true) : σ.allows ((s.alloc n).2.get m) = true := by
    rwa [get_alloc_of_lt (inside_of_firm hσ hm)]
  intro x c hc
  rcases Nat.lt_trichotomy x.index s.size with hlt | heq | hgt
  · rw [get_alloc_of_lt hlt] at hc
    exact still (h x c hc)
  · obtain rfl : x = (s.alloc n).1 := by cases x; cases heq; rfl
    rw [get_alloc_self] at hc
    exact still (hn c hc)
  · rw [get_of_size_le (by rw [size_alloc]; omega)] at hc
    cases hc

/-- A new node without children in firm slots. -/
theorem alloc_other (h : s.Firm σ) (hσ : σ.isFirm = true) (hn : n.hasFirm = false) : (s.alloc n).2.Firm σ := by
  apply h.alloc hσ
  rw [Node.firmly_eq_nil hn]
  nofun

/-- A firm tree is inserted firmly. -/
theorem insert {t : Tree} (hσ : σ.isFirm = true) (ht : t.Firm σ) (hs : s.Firm σ) : (s.insert t).2.Firm σ := by
  induction t using Tree.induct generalizing s with
  | mk n ih =>
    have hkids : (n.traverse (Tree.fold insertNode) s).2.Firm σ :=
      traverse_keeps (fun t htn s hs => ih t htn (ht.children t htn) hs) hs
    rw [insert_mk]
    apply hkids.alloc hσ
    intro c hc
    -- a child in a firm slot is there for a tree that may stand there
    obtain ⟨pairs, hfst, hsnd, hpairs⟩ := exists_beside n s
    rw [← hsnd, Node.firmly_map] at hc
    obtain ⟨p, hp, rfl⟩ := List.mem_map.1 hc
    obtain ⟨-, s₀, hp₂, hkeeps⟩ := hpairs p (Node.mem_children_of_firmly hp)
    have hallows : σ.allows p.1.node = true := by
      apply ht.firmly
      rw [← hfst, Node.firmly_map]
      exact List.mem_map_of_mem hp
    rw [hp₂, hkeeps.get _ (index_insert p.1 s₀), allows_insert, hallows]

theorem insertAll {ts : List Tree} (hσ : σ.isFirm = true) (hts : ∀ t ∈ ts, t.Firm σ) (hs : s.Firm σ) : (s.insertAll ts).2.Firm σ :=
  insertAll_keeps (fun t ht _ hs => insert hσ (hts t ht) hs) hs

/-- In a forest, the trees are firm. -/
theorem tree {K : Set NodeId} (h : s.Firm σ) (hσ : σ.isFirm = true) (hF : Forest s.children K) (hin : ∀ x ∈ K, x.index < s.size)
    (hx : x ∈ K) : (s.tree x).Firm σ := by
  induction hF.acc x hx with
  | intro x _ ih =>
    rw [tree_eq hF hin hx]
    constructor
    · intro t ht
      rw [Node.firmly_map] at ht
      obtain ⟨c, hc, rfl⟩ := List.mem_map.1 ht
      have hcK : c ∈ K := hF.closed x hx c (Node.mem_children_of_firmly hc)
      rw [node_tree hF hin hcK, Node.allows_map hσ]
      exact h x c hc
    · intro t ht
      rw [Node.children_map] at ht
      obtain ⟨c, hc, rfl⟩ := List.mem_map.1 ht
      exact ih c hc (hF.closed x hx c hc)

end Firm
end Store

namespace Editor

variable {e e' : Editor} {K : Set NodeId} {code : String} {target : NodeId} {members : List NodeId} {σ : Slot}

/-! ## Edits -/

section Firm
variable (hσ : σ.isFirm = true)
include hσ

theorem insertExpression_firm {id : NodeId} {s : Store} (h : e.store.Firm σ) (hc : e.insertExpression code = .ok (id, s)) :
    s.Firm σ := by
  unfold insertExpression at hc
  split at hc
  next => cases hc
  next t ht =>
    have hm := h.insert hσ ((Source.readExpression_fits ht).firm σ)
    rwa [Except.ok.inj hc] at hm

theorem insertStatements_firm {ids : List NodeId} {s : Store} (h : e.store.Firm σ)
    (hc : e.insertStatements code = .ok (ids, s)) : s.Firm σ := by
  have all {body : List Tree} (hb : ∀ t ∈ body, t.Firm σ)
      (hc : Except.ok (e.store.insertAll body) = (.ok (ids, s) : Except EditError _)) : s.Firm σ := by
    have hm := h.insertAll hσ hb
    rwa [Except.ok.inj hc] at hm
  unfold insertStatements at hc
  split at hc
  next => cases hc
  next body hr =>
    have hblock := (Source.readStatements_fits hr _ (List.mem_singleton_self _)).firm σ
    exact all (fun t ht => hblock.children t (by simpa using ht)) hc
  next body _ hr => exact all (fun t ht => (Source.readStatements_fits hr t ht).firm σ) hc

theorem insert_firm (h : e.store.Firm σ) {position : InsertPosition} (he : e.insert position code = .ok e') :
    e'.store.Firm σ := by
  obtain ⟨owner, index, statements, s, -, hread, rfl⟩ := insert_ok he
  exact (insertStatements_firm hσ h hread).set_alike hσ (Node.alike_withStatements hσ _ _)

section Wrap
variable {s : Store}

theorem blockBody_firm (h : s.Firm σ) (body : NodeId) : (blockBody s body).2.Firm σ := by
  cases hb : (s.get body).isBlock with
  | true => rwa [blockBody_of_block hb]
  | false =>
    rw [blockBody_of_expression hb]
    exact (h.alloc_other hσ rfl).alloc_other hσ rfl

theorem bodyStatements_firm (h : s.Firm σ) (body : NodeId) : (bodyStatements s body).2.Firm σ := by
  unfold bodyStatements
  split
  next => exact h
  next => exact h.alloc_other hσ rfl

theorem wrapFunction_firm (h : e.store.Firm σ) {target : NodeId} {original : Func NodeId}
    (ht : (e.store.get target).func? = some original) (wrapper : Func NodeId) (name : String) :
    (e.wrapFunction target original wrapper name).store.Firm σ := by
  have hin : target.index < e.store.size := by
    by_contra hge
    rw [Store.get_of_size_le (Nat.le_of_not_lt hge)] at ht
    cases ht
  have hinner : (allocInner e.store original name).2.Firm σ :=
    ((blockBody_firm hσ h original.body).alloc_other hσ rfl).alloc_other hσ rfl
  obtain ⟨held, hext⟩ := (allocInner_spec e.store original name).grown
  obtain ⟨inner, s, hs⟩ : ∃ inner s, allocInner e.store original name = (inner, s) := ⟨_, _, rfl⟩
  rw [hs] at hinner hext
  have houter : (allocOuter s inner wrapper.body).2.Firm σ := (bodyStatements_firm hσ hinner wrapper.body).alloc_other hσ rfl
  obtain ⟨held', hext'⟩ := (allocOuter_spec s inner wrapper.body).grown
  obtain ⟨body, s', hs'⟩ : ∃ body s', allocOuter s inner wrapper.body = (body, s') := ⟨_, _, rfl⟩
  rw [hs'] at houter hext'
  have ht' : (s'.get target).func? = some original := by rw [(hext.trans hext').get target hin, ht]
  simp only [wrapFunction_eq, hs, hs']
  exact houter.set_alike hσ (Node.alike_withFunc ht' (by rfl) σ)

end Wrap

theorem wrap_firm (h : e.store.Firm σ) (he : e.wrap code = .ok e') : e'.store.Firm σ := by
  obtain ⟨original, id, s, wrapper, name, ho, hread, -, rfl⟩ := wrap_ok he
  refine wrapFunction_firm (e := { e with store := s }) hσ (insertExpression_firm hσ h hread) ?_ wrapper name
  have hcur : e.current.index < e.store.size := by
    by_contra hge
    rw [node, Store.get_of_size_le (Nat.le_of_not_lt hge)] at ho
    cases ho
  dsimp only
  rw [(insertExpression_planted hread).get e.current hcur]
  exact ho

/-! ### Changing -/

/-- A change that keeps what stands in firm slots, and keeps all nodes what may stand there. -/
structure KeepsFirm (σ : Slot) (e e' : Editor) : Prop where
  firm : e'.store.Firm σ
  still : ∀ x, σ.allows (e.store.get x) = true → σ.allows (e'.store.get x) = true

omit hσ in
theorem KeepsFirm.refl (h : e.store.Firm σ) : KeepsFirm σ e e := ⟨h, fun _ hx => hx⟩

theorem setPropertyValue_firm (h : e.store.Firm σ) (property value : NodeId) : KeepsFirm σ e (e.setPropertyValue property value) := by
  unfold setPropertyValue
  split
  next key old kind computed shorthand method hn =>
    have hkeep : σ.allows (e.store.get property) = true →
        σ.allows (Node.property key value .init computed false false) = true := by
      rw [hn]
      cases σ with
      | member => exact fun _ => rfl
      | method => exact fun ha => nomatch ha
      | _ => cases hσ
    refine ⟨h.set hσ hkeep fun c hc => ?_, fun x hx => Store.allows_set hσ hkeep hx⟩
    simp [Node.firmly] at hc
  next => exact ⟨h, fun _ hx => hx⟩

theorem appendMember_firm (h : e.store.Firm σ) {member : NodeId}
    (hm : σ = .member → σ.allows (e.store.get member) = true) (object : NodeId) : KeepsFirm σ e (e.appendMember object member) := by
  unfold appendMember
  split
  next properties hn =>
    have hkeep : σ.allows (e.store.get object) = true → σ.allows (Node.objectExpression (properties ++ [member])) = true := by
      rw [hn]
      exact (allows_objectExpression σ _ _).trans
    refine ⟨h.set hσ hkeep fun c hc => ?_, fun x hx => Store.allows_set hσ hkeep hx⟩
    rw [Node.firmly] at hc
    split at hc
    next hmember =>
      rcases List.mem_append.1 hc with hold | hnew
      · apply h object
        rw [hn, Node.firmly, if_pos hmember]
        exact hold
      · rw [List.mem_singleton.1 hnew]
        exact hm hmember
    next => cases hc
  next => exact ⟨h, fun _ hx => hx⟩

omit hσ in
/-- The members of a literal are members, those of a pattern need not be. -/
theorem allows_of_mem (h : e.store.Firm σ) {object : NodeId} (ho : e.store.isObject object = true) :
    ∀ m ∈ e.store.members object, σ = .member → σ.allows (e.store.get m) = true := by
  obtain ⟨properties, hp⟩ := isObject_iff.1 ho
  intro m hm hσ
  apply h object
  rw [Store.members, hp] at hm
  rwa [hp, Node.firmly, if_pos hσ]

theorem mergeMembers_firm (depth : Nat) (h : e.store.Firm σ)
    (hm : ∀ m ∈ members, σ = .member → σ.allows (e.store.get m) = true) : KeepsFirm σ e (e.mergeMembers target depth members) := by
  induction depth generalizing e target members with
  | zero => exact .refl h
  | succ depth ih =>
    cases members with
    | nil => exact .refl h
    | cons member more =>
      have go {e₁ : Editor} (hfirst : KeepsFirm σ e e₁) : KeepsFirm σ e (e₁.mergeMembers target depth more) := by
        have hrest : KeepsFirm σ e₁ (e₁.mergeMembers target depth more) :=
          ih hfirst.firm fun m hmore hmember => hfirst.still m (hm m (List.mem_cons_of_mem member hmore) hmember)
        exact ⟨hrest.firm, fun x hx => hrest.still x (hfirst.still x hx)⟩
      rw [mergeMembers]
      split
      next existing old new hc =>
        split
        next hobj => exact go (ih h (allows_of_mem h (Bool.and_eq_true_iff.1 hobj).2))
        next => exact go (setPropertyValue_firm hσ h existing new)
      next => exact go (appendMember_firm hσ h (hm member List.mem_cons_self) target)

theorem update_firm (h : e.store.Firm σ) {value : ChangeValue} (he : e.update value = .ok e') : e'.store.Firm σ := by
  obtain ⟨target, source, s, -, hread, hsource, rfl⟩ := update_ok he
  have hs : ({ e with store := s } : Editor).store.Firm σ := insertExpression_firm hσ h hread
  exact (mergeMembers_firm hσ (s.size + 1) hs (allows_of_mem hs hsource)).firm

theorem set_firm (h : e.store.Firm σ) {value : ChangeValue} (he : e.set value = .ok e') : e'.store.Firm σ := by
  obtain ⟨new, s, n, hread, hput, hget, hstore, -⟩ := set_put he
  have hs : s.Firm σ := insertExpression_firm hσ h hread
  rw [hstore]
  generalize e.node = old at hput hget
  -- a node that stands in no firm slot is written over with a copy of the new one
  have copied (hno : σ.allows old = false) : (s.set e.current (s.get new)).Firm σ := by
    refine hs.set hσ (fun hm => ?_) (hs new)
    rw [hget, hno] at hm
    cases hm
  cases hput with
  | declarator id init =>
    refine hs.set hσ (fun hm => ?_) fun c hc => nomatch hc
    rw [hget] at hm
    cases σ with
    | member => cases hm
    | method => cases hm
    | _ => cases hσ
  | property key old kind computed shorthand method =>
    have hfirm := (setPropertyValue_firm (e := { e with store := s }) hσ hs e.current new).firm
    rwa [setPropertyValue_eq hget] at hfirm
  | object properties copied' =>
    refine copied ?_
    cases σ with
    | member => rfl
    | method => rfl
    | _ => cases hσ
  | literal =>
    refine copied ?_
    cases σ with
    | member => rfl
    | method => rfl
    | _ => cases hσ

theorem Edited.firm (h : e.store.Firm σ) (he : e.Edited e') : e'.store.Firm σ := by
  cases he with
  | insert position code he => exact insert_firm hσ h he
  | wrap code he => exact wrap_firm hσ h he
  | change method value he =>
    cases method with
    | update => exact update_firm hσ h he
    | set => exact set_firm hσ h he

end Firm
end Editor

/-! ## Runs -/

/-- What is left behind is firm, as all code is that can be read. -/
def Move.Firm (σ : Slot) : Move → Prop
  | .scrap trees => ∀ t ∈ trees, t.Firm σ
  | _ => True

theorem Move.IsReal.firm {m : Move} (h : m.IsReal) (σ : Slot) : m.Firm σ := by
  cases m with
  | scrap trees =>
    intro t ht
    obtain ⟨code, hcode⟩ := h t ht
    exact (Source.readExpression_fits hcode).firm σ
  | _ => trivial

namespace Editing

/-- From a text that can be read on, firm slots stay so. -/
theorem run_firm {σ : Slot} (hσ : σ.isFirm = true) {text : String} {t : Tree} (ht : Source.readProgram text = .ok t)
    (moves : List Move) (hmoves : ∀ m ∈ moves, m.Firm σ) : ((start t).run moves).editor.store.Firm σ := by
  apply run_keeps (P := Store.Firm σ)
  · exact Store.Firm.empty.insert hσ ((Source.readProgram_fits ht).firm σ)
  · intro e e' K _ he h
    exact he.firm hσ h
  · intro e K trees _ hm h
    exact h.insertAll hσ (hmoves (.scrap trees) hm)

end Editing
end Graft
