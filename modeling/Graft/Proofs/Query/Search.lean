import Graft.Proofs.Query.Walk
/-!
# What a search finds

A search keeps its own stack and fills in the parent links that it reads. `Preorder` is the order of a document, by
recursion on the tree, and `Store.walk_preorder` ties the two together: whatever was recorded before, a node is
linked to its holder by the time it is looked at. So a search of a finite tree gives the matches in document order
(`Store.findAll_exact`), and the condition on an argument of a call is a search of its own.
-/

namespace Graft

/-- The nodes of the trees with tops `tops`, each before what it holds, slot by slot. -/
inductive Preorder {α : Type} (kids : α → List α) : List α → List α → Prop
  | nil : Preorder kids [] []
  | cons {x : α} {tops below after : List α} : Preorder kids (kids x) below → Preorder kids tops after →
      Preorder kids (x :: tops) (x :: below ++ after)

section Preorder
variable {α : Type} {kids : α → List α} {K : Set α} {tops tops' order order' : List α}

namespace Preorder

theorem append (h : Preorder kids tops order) (h' : Preorder kids tops' order') :
    Preorder kids (tops ++ tops') (order ++ order') := by
  induction h with
  | nil => exact h'
  | cons hbelow _ _ ih => simpa using hbelow.cons ih

theorem mem_iff (h : Preorder kids tops order) (x : α) : x ∈ order ↔ ∃ t ∈ tops, Below kids t x := by
  induction h with
  | nil => simp
  | @cons t tops below after _ _ ihb iha =>
    rw [List.cons_append, List.mem_cons, List.mem_append, ihb, iha]
    constructor
    · rintro (rfl | ⟨c, hc, hb⟩ | ⟨u, hu, hb⟩)
      · exact ⟨x, List.mem_cons_self, .refl x⟩
      · exact ⟨t, List.mem_cons_self, (Below.kid hc).trans hb⟩
      · exact ⟨u, List.mem_cons_of_mem _ hu, hb⟩
    · rintro ⟨u, hu, hb⟩
      rcases List.mem_cons.1 hu with rfl | hu
      · rcases Relation.ReflTransGen.cases_head hb with rfl | ⟨c, hc, hcx⟩
        · exact .inl rfl
        · exact .inr (.inl ⟨c, hc, hcx⟩)
      · exact .inr (.inr ⟨u, hu, hb⟩)

end Preorder

/-- A forest has its nodes in one order. -/
theorem Forest.exists_preorder (h : Forest kids K) (ht : ∀ t ∈ tops, t ∈ K) : ∃ order, Preorder kids tops order := by
  have below (x : α) (hx : x ∈ K) : ∃ order, Preorder kids (kids x) order := by
    induction h.acc x hx with
    | intro x _ ih =>
      have kidsOf (cs : List α) (hcs : ∀ c ∈ cs, c ∈ kids x) : ∃ order, Preorder kids cs order := by
        induction cs with
        | nil => exact ⟨[], .nil⟩
        | cons c cs ihc =>
          have hc := hcs c List.mem_cons_self
          obtain ⟨under, hunder⟩ := ih c hc (h.closed x hx c hc)
          obtain ⟨after, hafter⟩ := ihc fun d hd => hcs d (List.mem_cons_of_mem _ hd)
          exact ⟨_, hunder.cons hafter⟩
      exact kidsOf (kids x) fun _ hc => hc
  induction tops with
  | nil => exact ⟨[], .nil⟩
  | cons t tops ih =>
    obtain ⟨under, hunder⟩ := below t (ht t List.mem_cons_self)
    obtain ⟨after, hafter⟩ := ih fun u hu => ht u (List.mem_cons_of_mem _ hu)
    exact ⟨_, hunder.cons hafter⟩

/-- Every node that is held has one holder. -/
theorem Forest.exists_holder (h : Forest kids K) : ∃ holder : α → α, ∀ p ∈ K, ∀ c ∈ kids p, holder c = p := by
  classical
  refine ⟨fun c => if hc : ∃ p ∈ K, c ∈ kids p then hc.choose else c, fun p hp c hc => ?_⟩
  have hex : ∃ p ∈ K, c ∈ kids p := ⟨p, hp, hc⟩
  simp only [dif_pos hex]
  exact h.holder _ hex.choose_spec.1 p hp c hex.choose_spec.2 hc

end Preorder

namespace Store
variable {s : Store} {K : Set NodeId} {seen stack found order : List NodeId} {top id : NodeId} {holder : NodeId → NodeId}

/-! ## The walk in document order -/

section Walk
variable (hF : Forest s.children K) (hs : ∀ x ∈ K, x.index < s.size) (hh : ∀ p ∈ K, ∀ c ∈ s.children p, holder c = p)
  (accepts : NodeId → Option NodeId → Bool)
include hF hs hh

/-- A walk whose stack is linked to its holders looks at every node with its holder as parent, in document order. -/
theorem walk_preorder (fuel : Nat) (ps : Parents) (found : List NodeId) (hf : Front s.children K seen stack)
    (hfuel : s.size + 1 ≤ fuel + seen.length) (ho : Preorder s.children stack order)
    (hl : ∀ x ∈ stack, ps.get? x = some (holder x)) :
    (s.walk (fun ps x => accepts x (ps.get? x)) fuel stack ps found).1
        = found.reverse ++ order.filter (fun x => accepts x (some (holder x))) ∧
      ∀ x, (s.walk (fun ps x => accepts x (ps.get? x)) fuel stack ps found).2.get? x
        = if x ∈ order then some (holder x) else ps.get? x := by
  have hlen := front_length hs hf
  -- On the fuel: each step takes a node from the stack and links what that holds before any of it is looked at.
  induction fuel generalizing seen stack ps found order with
  | zero => omega
  | succ fuel ih =>
    cases ho with
    | nil => simp [walk]
    | @cons id rest below after hbelow hafter =>
      have hf' := Front.pop hF hf
      have hid : id ∈ K := hf.mem id (by simp)
      have link (x : NodeId) : (ps.linkAll (s.children id) id).get? x
          = if x ∈ s.children id then some (holder x) else ps.get? x := by
        rw [Parents.get?_linkAll]
        split
        next hx => rw [hh id hid x hx]
        next => rfl
      have hl' : ∀ x ∈ s.children id ++ rest, (ps.linkAll (s.children id) id).get? x = some (holder x) := by
        intro x hx
        rw [link]
        split
        next => rfl
        next hk => exact hl x (List.mem_cons_of_mem _ ((List.mem_append.1 hx).resolve_left hk))
      obtain ⟨hfound, hlinks⟩ := ih (ps.linkAll (s.children id) id) (if accepts id (ps.get? id) then id :: found else found) hf'
        (by simp only [List.length_cons]; omega) (hbelow.append hafter) hl' (front_length hs hf')
      have hidl := hl id List.mem_cons_self
      simp only [walk]
      refine ⟨?_, fun x => ?_⟩
      · rw [hfound, hidl]
        cases hacc : accepts id (some (holder id)) <;> simp [hacc]
      · rw [hlinks, link]
        by_cases hx : x ∈ below ++ after
        · simp [hx]
        · have hk : x ∉ s.children id := fun hk =>
            hx (List.mem_append_left _ ((hbelow.mem_iff x).2 ⟨x, hk, .refl x⟩))
          rw [if_neg hx, if_neg hk]
          by_cases hxi : x = id
          · subst hxi
            simp [hidl]
          · rw [if_neg]
            simpa [hxi] using hx

/-- A search of a forest, from whatever links. -/
theorem search_preorder (hid : id ∈ K) (ps : Parents) (ho : Preorder s.children (s.children id) order) :
    (s.search ps id fun ps x => accepts x (ps.get? x)).1 = order.filter (fun x => accepts x (some (holder x))) ∧
      ∀ x, (s.search ps id fun ps x => accepts x (ps.get? x)).2.get? x
        = if x ∈ order then some (holder x) else ps.get? x := by
  have link (x : NodeId) : (ps.linkAll (s.children id) id).get? x
      = if x ∈ s.children id then some (holder x) else ps.get? x := by
    rw [Parents.get?_linkAll]
    split
    next hx => rw [hh id hid x hx]
    next => rfl
  obtain ⟨hfound, hlinks⟩ := walk_preorder hF hs hh accepts (s.size + 1) (ps.linkAll (s.children id) id) []
    (Front.start hF hid) (by simp) ho fun x hx => by rw [link, if_pos hx]
  refine ⟨by simpa [search] using hfound, fun x => (hlinks x).trans ?_⟩
  by_cases hx : x ∈ order
  · simp [hx]
  · have hk : x ∉ s.children id := fun hk => hx ((ho.mem_iff x).2 ⟨x, hk, .refl x⟩)
    rw [if_neg hx, if_neg hx, link, if_neg hk]

end Walk

/-! ## Conditions on arguments -/

theorem argumentsMatch_iff {call : NodeId} (arguments : List NodeId) (params : List (Option MatchSpec)) :
    s.argumentsMatch call arguments params = true ↔ arguments.length = params.length ∧
      ∀ (i : Nat) (argument : NodeId) (spec : MatchSpec), arguments[i]? = some argument → params[i]? = some (some spec) →
        s.matchesIn argument (some call) spec = true := by
  induction arguments generalizing params with
  | nil => cases params <;> simp [argumentsMatch]
  | cons argument arguments ih =>
    -- a place is the first one, or a place among the others
    have places (P : Nat → Prop) : (∀ i, P i) ↔ P 0 ∧ ∀ i, P (i + 1) :=
      ⟨fun h => ⟨h 0, fun i => h (i + 1)⟩, fun h i => by cases i with | zero => exact h.1 | succ i => exact h.2 i⟩
    cases params with
    | nil => simp [argumentsMatch]
    | cons param params =>
      rw [places]
      cases param with
      | none => simp [argumentsMatch, ih]
      | some spec => simp [argumentsMatch, ih]; tauto

/-! ## Finite trees -/

/-- The nodes below `top` lie in the store and form a tree: each has one holder and one slot in it, and going down
from holder to held ends. -/
structure FiniteTree (s : Store) (top : NodeId) : Prop where
  inside : ∀ x, Below s.children top x → x.index < s.size
  forest : Forest s.children {x | Below s.children top x}

theorem ofTree_finiteTree (t : Tree) : (ofTree t).FiniteTree (ofTree t).root := by
  have hp := insert_planted t .empty
  have hmem : (ofTree t).root ∈ Store.empty.added (ofTree t) := (hp.tops.loose _ List.mem_cons_self).1
  have hbelow : {x | Below (ofTree t).children (ofTree t).root x} ⊆ Store.empty.added (ofTree t) := fun x hx =>
    hp.tops.forest.below_mem hmem hx
  exact ⟨fun x hx => (hbelow hx).2, hp.tops.forest.subset hbelow fun p hp c hc => hp.tail hc⟩

/-- What a search below `id` gives, `order` being the nodes strictly below it. -/
structure FindsExactly (s : Store) (id : NodeId) (order : List NodeId) (spec : MatchSpec) (ps : Parents) : Prop where
  inOrder : (s.findAll ps id spec).1.Sublist order
  found : ∀ x, x ∈ (s.findAll ps id spec).1 ↔
    ∃ p, Below s.children id p ∧ x ∈ s.children p ∧ s.matchesIn x (some p) spec = true
  linked : ∀ p, Below s.children id p → ∀ c ∈ s.children p, (s.findAll ps id spec).2.get? c = some p
  others : ∀ x, x ∉ order → (s.findAll ps id spec).2.get? x = ps.get? x

/-- A call with the right name and number of arguments, each of which a search below `id` for its own condition finds. -/
def CallFound (s : Store) (id : NodeId) (ps : Parents) (name : Option String) (params : List (Option MatchSpec))
    (call : NodeId) : Prop :=
  ∃ callee arguments optional, s.get call = .callExpression callee arguments optional ∧
    (∀ n, name = some n → s.calleeName? callee = some n) ∧ arguments.length = params.length ∧
    ∀ (i : Nat) (argument : NodeId) (spec : MatchSpec), arguments[i]? = some argument → params[i]? = some (some spec) →
      argument ∈ (s.findAll ps id spec).1

theorem matchesIn_call_iff {node : NodeId} {parent : Option NodeId} {name : Option String}
    {params : List (Option MatchSpec)} : s.matchesIn node parent (.call name (some params)) = true ↔
      ∃ callee arguments optional, s.get node = .callExpression callee arguments optional ∧
        (∀ n, name = some n → s.calleeName? callee = some n) ∧ s.argumentsMatch node arguments params = true := by
  rw [matchesIn]
  split
  next callee arguments optional hn =>
    have named : (name.isNone || decide (s.calleeName? callee = name)) = true ↔
        ∀ n, name = some n → s.calleeName? callee = some n := by
      cases name <;> simp
    simp only [Bool.and_eq_true, named]
    constructor
    · exact fun h => ⟨callee, arguments, optional, hn, h⟩
    · rintro ⟨_, _, _, h, hm⟩
      cases hn.symm.trans h
      exact hm
  next hn =>
    refine iff_of_false Bool.false_ne_true ?_
    rintro ⟨callee, arguments, optional, h, -⟩
    exact hn callee arguments optional h

/-- Whatever links were recorded, a search below a node of a finite tree finds the nodes strictly below it that match with
their holder as parent, in document order and each once; it links every node below to its holder and changes no other
link. A call meets conditions on its arguments exactly if searches for them find its arguments. -/
theorem findAll_exact (h : s.FiniteTree top) (hid : Below s.children top id) :
    ∃ order, Preorder s.children (s.children id) order ∧ order.Nodup ∧
      (∀ x, x ∈ order ↔ ∃ c ∈ s.children id, Below s.children c x) ∧
      (∀ spec ps, FindsExactly s id order spec ps) ∧
      (∀ spec ps ps', (s.findAll ps id spec).1 = (s.findAll ps' id spec).1) ∧
      ∀ name params ps x, x ∈ order →
        (x ∈ (s.findAll ps id (.call name (some params))).1 ↔ CallFound s id ps name params x) := by
  have hK : id ∈ {x | Below s.children top x} := hid
  have hs : ∀ x ∈ {x | Below s.children top x}, x.index < s.size := h.inside
  obtain ⟨order, ho⟩ := h.forest.exists_preorder (h.forest.closed id hid)
  obtain ⟨holder, hh⟩ := h.forest.exists_holder
  have below {p : NodeId} (hp : Below s.children id p) : p ∈ {x | Below s.children top x} := hid.trans hp
  -- below a child of `id`, or held by a node below it: the same
  have held (x : NodeId) : x ∈ order ↔ ∃ p, Below s.children id p ∧ x ∈ s.children p := by
    rw [ho.mem_iff]
    constructor
    · rintro ⟨c, hc, hb⟩
      rcases Relation.ReflTransGen.cases_tail hb with rfl | ⟨p, hp, hpx⟩
      · exact ⟨id, .refl id, hc⟩
      · exact ⟨p, (Below.kid hc).trans hp, hpx⟩
    · rintro ⟨p, hp, hpx⟩
      rcases Relation.ReflTransGen.cases_head hp with rfl | ⟨c, hc, hcp⟩
      · exact ⟨x, hpx, .refl x⟩
      · exact ⟨c, hc, hcp.trans (Below.kid hpx)⟩
  have result (spec : MatchSpec) (ps : Parents) :
      (s.findAll ps id spec).1 = order.filter (fun x => s.matchesIn x (some (holder x)) spec) ∧
        ∀ x, (s.findAll ps id spec).2.get? x = if x ∈ order then some (holder x) else ps.get? x :=
    search_preorder h.forest hs hh (fun x parent => s.matchesIn x parent spec) hK ps ho
  have mem (spec : MatchSpec) (ps : Parents) (x : NodeId) : x ∈ (s.findAll ps id spec).1 ↔
      ∃ p, Below s.children id p ∧ x ∈ s.children p ∧ s.matchesIn x (some p) spec = true := by
    rw [(result spec ps).1, List.mem_filter, held]
    constructor
    · rintro ⟨⟨p, hp, hpx⟩, hm⟩
      exact ⟨p, hp, hpx, hh p (below hp) x hpx ▸ hm⟩
    · rintro ⟨p, hp, hpx, hm⟩
      exact ⟨⟨p, hp, hpx⟩, by rwa [hh p (below hp) x hpx]⟩
  have all : (s.search .empty id fun _ _ => true).1 = order := by
    simpa using (search_preorder h.forest hs hh (fun _ _ => true) hK .empty ho).1
  refine ⟨order, ho, ?_, ho.mem_iff, fun spec ps => ⟨?_, mem spec ps, fun p hp c hc => ?_, fun x hx => ?_⟩,
    fun spec ps ps' => by rw [(result spec ps).1, (result spec ps').1], fun name params ps x hx => ?_⟩
  · rw [← all]
    exact (search_visits h.forest hs hK .empty).1
  · rw [(result spec ps).1]
    exact List.filter_sublist
  · rw [(result spec ps).2, if_pos ((held c).2 ⟨p, hp, hc⟩), hh p (below hp) c hc]
  · rw [(result spec ps).2, if_neg hx]
  -- an argument of a call in the order is in the order too, so a search for its condition looks at it
  · have argument {callee argument : NodeId} {arguments : List NodeId} {optional : Bool} {i : Nat} (spec : MatchSpec)
        (hn : s.get x = .callExpression callee arguments optional) (hi : arguments[i]? = some argument) :
        s.matchesIn argument (some x) spec = true ↔ argument ∈ (s.findAll ps id spec).1 := by
      have hxa : argument ∈ s.children x := by
        rw [children, hn]
        simp [Node.children, Node.fields, List.mem_of_getElem? hi]
      obtain ⟨p, hp, hpx⟩ := (held x).1 hx
      have hbx : Below s.children id x := hp.tail hpx
      rw [mem]
      constructor
      · exact fun hm => ⟨x, hbx, hxa, hm⟩
      · rintro ⟨q, hq, hqa, hm⟩
        rwa [h.forest.holder x (below hbx) q (below hq) argument hxa hqa]
    rw [(result _ ps).1, List.mem_filter, and_iff_right hx, matchesIn_call_iff]
    refine exists_congr fun callee => exists_congr fun arguments => exists_congr fun optional => and_congr_right fun hn => ?_
    rw [argumentsMatch_iff]
    refine and_congr_right fun _ => and_congr_right fun _ => ?_
    exact forall_congr' fun i => forall_congr' fun a => forall_congr' fun spec => forall_congr' fun hi =>
      imp_congr_right fun _ => argument spec hn hi

/-- In `f(null)` as anywhere. -/
theorem findAll_call : ∃ order,
    let s := ofTree (.mk (.callExpression (.mk (.identifier "f")) [.mk (.literal .null "null")] false))
    s.FiniteTree s.root ∧ order.Nodup ∧ (∀ x, x ∈ order ↔ ∃ c ∈ s.children s.root, Below s.children c x) ∧
      ∀ spec ps, FindsExactly s s.root order spec ps := by
  have h := ofTree_finiteTree (.mk (.callExpression (.mk (.identifier "f")) [.mk (.literal .null "null")] false))
  obtain ⟨order, -, hn, hmem, hfinds, -⟩ := findAll_exact h (.refl _)
  exact ⟨order, h, hn, hmem, hfinds⟩

end Store
end Graft
