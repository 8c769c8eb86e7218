import Graft.Proofs.Edit.Links
import Graft.Proofs.Edit.Steps
import Graft.Proofs.Edit.Rewriting
/-!
# Matches that get lost

A search finds its matches first and then visits them one after the other, so a change at one match may have taken another one out of
the tree before that is visited. Nodes that are out of the tree never come back (`Editing.run_inTree`), and of all moves only changes
take any out (`Editing.step_keeps`). So where every search comes to its end, all matches are in the tree when they are visited exactly
if no change takes out a match that is still to be visited and no search out of the tree finds anything (`Editing.visits_inTree_iff`).
-/

namespace Graft

/-- The root reaches the node. -/
def Editor.InTree (e : Editor) (x : NodeId) : Prop := Below e.store.children e.store.root x

namespace Editing

variable {σ : Editing} {K K' : Set NodeId} {x : NodeId}

/-- A match is still to be visited. -/
def Awaits (σ : Editing) (x : NodeId) : Prop := ∃ v ∈ σ.visits, x ∈ v.pending

/-- The match that the innermost search is to visit next. -/
def next? (σ : Editing) : Option NodeId := σ.visits.head?.bind fun v => v.pending.head?

/-- A move that a match gets lost by. -/
inductive Loses (σ : Editing) : Move → Prop
  /-- A change takes a match out of the tree that is still to be visited. -/
  | change {method : ChangeMethod} {value : ChangeValue} {e' : Editor} {x : NodeId}
    (he : σ.editor.change method value = .ok e') (hx : σ.Awaits x) (hin : σ.editor.InTree x) (hout : ¬ e'.InTree x) :
    Loses σ (.change method value)
  /-- A search out of the tree finds something. -/
  | find {spec : MatchSpec} (hout : ¬ σ.editor.InTree σ.editor.current) (hfound : (σ.editor.findAll spec).1 ≠ []) :
    Loses σ (.find spec)
  | findPattern {pattern : Json} (hout : ¬ σ.editor.InTree σ.editor.current) (hfound : (σ.editor.findPattern pattern).1 ≠ []) :
    Loses σ (.findPattern pattern)

/-! ## In the tree -/

/-- What is below a node of the tree is in the tree, and what is below another known node is not. -/
theorem inTree_below {e : Editor} (h : Sound e K) {p : NodeId} (hp : p ∈ K) (hx : Below e.store.children p x) :
    e.InTree x ↔ e.InTree p := by
  refine ⟨fun hin => ?_, fun hin => hin.trans hx⟩
  rcases h.forest.comparable h.root hp hin hx with hb | hb
  · exact hb
  -- the root is below the root alone
  · rcases Relation.ReflTransGen.cases_tail hb with rfl | ⟨q, -, hq⟩
    · exact .refl _
    · exact absurd hq (h.top q)

/-- A known node that is in the tree after a move was in it before. -/
theorem step_inTree (h : Known σ K) (m : Move) (hx : x ∈ K) (hin : (σ.step m).editor.InTree x) : σ.editor.InTree x := by
  by_cases hm : Strands σ.editor m
  · obtain ⟨code, f, rfl, ⟨e', he⟩, ho, -⟩ := hm
    obtain ⟨f', K', inner, body, ho', hw⟩ := Editor.wrap_wrapped h.sound he
    have hstep : (σ.step (.wrap code)).editor = e' := by simp [Editing.step, operate, he]
    rw [hstep, Editor.InTree, hw.root] at hin
    exact (hw.reach h.sound ho' hin).1 hx
  · have hf := step_faithful h hm
    rw [Editor.InTree, hf.root] at hin
    exact hf.reach x hx hin

/-- What is out of the tree never comes back. -/
theorem run_inTree (h : Known σ K) (moves : List Move) (hx : x ∈ K) (hin : (σ.run moves).editor.InTree x) : σ.editor.InTree x := by
  induction moves generalizing σ K with
  | nil => exact hin
  | cons m moves ih =>
    obtain ⟨K', hK, hk⟩ := step_known h m
    exact step_inTree h m hx (ih hk (hK hx) hin)

/-- New trees beside the others leave the tree as it is. -/
theorem inTree_planted {e : Editor} (h : Sound e K) {s : Store} {tops : List NodeId} (hp : e.store.Planted s tops)
    (hin : e.InTree x) : ({ e with store := s } : Editor).InTree x := by
  unfold Editor.InTree at hin ⊢
  dsimp only
  rw [hp.root]
  refine (Below.agree_iff fun y hy => hp.children ?_).2 hin
  exact h.inside y (h.forest.below_mem h.root hy)

theorem insert_keeps {e e' : Editor} (h : Sound e K) {position : InsertPosition} {code : String}
    (he : e.insert position code = .ok e') (hin : e.InTree x) : e'.InTree x := by
  obtain ⟨owner, index, statements, s, hpoint, hread, rfl⟩ := Editor.insert_ok he
  have hplanted := Editor.insertStatements_planted hread
  have howner := h.inside owner (Editor.insertionPoint_known h hpoint)
  obtain ⟨list, hlist⟩ := Editor.insertionPoint_statements hpoint
  rw [← hplanted.get owner howner] at hlist
  -- the owner holds what it held, and the statements beside it
  obtain ⟨others, hkids, hnew⟩ := Node.children_withStatements hlist (list.take index ++ statements ++ list.drop index)
  refine (inTree_planted h hplanted hin).mono fun p c hc => ?_
  simp only [Editor.splice, hlist, Option.getD_some, Store.children_set (howner.trans_le hplanted.size)]
  by_cases hp : p = owner
  · subst hp
    have hold : c ∈ others ++ list := hkids ▸ hc
    rw [Function.update_self, hnew]
    refine List.mem_append.2 ((List.mem_append.1 hold).imp_right fun hl => ?_)
    exact (Editor.perm_spliced list statements index).mem_iff.2 (List.mem_append_left _ hl)
  · rw [Function.update_of_ne hp]
    exact hc

/-- What an operation keeps in the tree, its move keeps. -/
theorem operate_keeps {f : Editor → Editor.Result} (hf : ∀ e', f σ.editor = .ok e' → e'.InTree x) (hin : σ.editor.InTree x) :
    (σ.operate f).editor.InTree x := by
  unfold Editing.operate
  split
  next e' he => exact hf e' he
  next => exact hin

/-- Moves that are no changes leave in the tree what is in it. -/
theorem step_keeps (h : Known σ K) {m : Move} (hm : ∀ method value, m ≠ .change method value) (hin : σ.editor.InTree x) :
    (σ.step m).editor.InTree x := by
  have same {e' : Editor} (he : e'.store = σ.editor.store) : e'.InTree x := by
    rw [Editor.InTree, he]
    exact hin
  cases m with
  | gotoChild field => exact operate_keeps (f := fun e => e.gotoChild field) (fun e' he => same (Editor.gotoChild_store he)) hin
  | gotoElement field index =>
    exact operate_keeps (f := fun e => e.gotoElement field index) (fun e' he => same (Editor.gotoElement_store he)) hin
  | gotoParent => exact operate_keeps (f := Editor.gotoParent) (fun e' he => same (Editor.gotoParent_store he)) hin
  | insert position code =>
    exact operate_keeps (f := fun e => e.insert position code) (fun e' he => insert_keeps h.sound he hin) hin
  | wrap code =>
    refine operate_keeps (f := fun e => e.wrap code) (fun e' he => ?_) hin
    obtain ⟨f, K', inner, body, ho, hw⟩ := Editor.wrap_wrapped h.sound he
    rw [Editor.InTree, hw.root]
    exact hw.reach_known h.sound ho hin
  | change method value => exact absurd rfl (hm method value)
  | find spec => exact same rfl
  | findPattern pattern => exact same rfl
  | visit =>
    rw [Editing.step]
    split
    next => exact same rfl
    next => exact hin
  | leave =>
    rw [Editing.step]
    split
    next => exact same rfl
    next => exact hin
  | scrap trees => exact inTree_planted h.sound (Store.insertAll_planted trees σ.editor.store) hin

/-! ## What a set takes out -/

end Editing

/-- The children that a value is set in place of. -/
def Node.replaced : Node NodeId → List NodeId
  | .variableDeclarator _ init => init.toList
  | .property _ value .. => [value]
  | .objectExpression properties => properties
  | _ => []

/-- Setting a value keeps the children that it does not replace, and all others are new. -/
theorem Node.Put.mem_children_iff {new c : NodeId} {copy n n' : Node NodeId} (h : Node.Put new copy n n') (hn : n.children.Nodup)
    (hnew : c ≠ new) (hcopy : c ∉ copy.children) : c ∈ n'.children ↔ c ∈ n.children ∧ c ∉ n.replaced := by
  cases h with
  | declarator id init =>
    cases init with
    | none => simp [Node.replaced, hnew]
    | some old =>
      have hne : id ≠ old := by simpa using hn
      simp only [Node.children_variableDeclarator, Node.replaced, Option.toList_some, List.mem_cons, List.not_mem_nil, or_false]
      grind
  | property key old kind computed shorthand method =>
    have hne : key ≠ old := by simpa using hn
    simp only [Node.children_property, Node.replaced, List.mem_cons, List.not_mem_nil, or_false]
    grind
  | object properties copied hc => simp [Node.replaced, hcopy]
  | literal value raw => exact iff_of_false hcopy fun hc => by simp [Node.children, Node.fields] at hc

theorem Node.mem_children_of_replaced {n : Node NodeId} {c : NodeId} (h : c ∈ n.replaced) : c ∈ n.children := by
  cases n with
  | variableDeclarator id init => simp_all [Node.replaced]
  | property key value kind computed shorthand method => simp_all [Node.replaced]
  | objectExpression properties => simpa [Node.replaced] using h
  | _ => cases h

/-- Of what was in the tree, setting a value takes out what is below the nodes that it replaces. -/
theorem Editor.set_inTree_iff {e e' : Editor} {K : Set NodeId} {x : NodeId} (h : Sound e K) (hx : x ∈ K) {value : ChangeValue}
    (he : e.set value = .ok e') : e'.InTree x ↔ e.InTree x ∧ ¬ Reach e.store.children e.node.replaced x := by
  obtain ⟨new, s, n, hread, hput, -, hstore, -⟩ := set_put he
  have hp := insertExpression_planted hread
  have hcur := h.inside _ h.current
  have hroot : e'.store.root = e.store.root := by rw [hstore, Store.root_set, hp.root]
  have hkids : e'.store.children = Function.update s.children e.current n.children := by
    rw [hstore, Store.children_set (hcur.trans_le hp.size)]
  have hnewK : new ∈ e.store.added s := (hp.tops.loose new List.mem_cons_self).1
  have hold {c : NodeId} (hc : c.index < e.store.size) : c ≠ new ∧ c ∉ (s.get new).children := by
    constructor
    · rintro rfl
      exact Nat.not_lt.2 hnewK.1 hc
    · intro hmem
      exact Nat.not_lt.2 (hp.tops.forest.closed new hnewK c hmem).1 hc
  -- of the nodes that were there, each holds what it held, but for the replaced ones
  have held {p c : NodeId} (hpK : p ∈ K) (hc : c.index < e.store.size) :
      c ∈ e'.store.children p ↔ c ∈ e.store.children p ∧ ¬ (p = e.current ∧ c ∈ e.node.replaced) := by
    by_cases hpc : p = e.current
    · rw [hpc, hkids, Function.update_self, hput.mem_children_iff (h.forest.nodup _ h.current) (hold hc).1 (hold hc).2]
      simp [Store.children, Editor.node]
    · rw [hkids, Function.update_of_ne hpc, hp.children (h.inside p hpK)]
      simp [hpc]
  constructor
  · intro hin
    rw [InTree, hroot] at hin
    have hlt := h.inside x hx
    clear hx
    induction hin with
    | refl =>
      refine ⟨.refl _, ?_⟩
      rintro ⟨r, hr, hb⟩
      rcases Relation.ReflTransGen.cases_tail hb with he | ⟨q, -, hq⟩
      · exact h.top e.current (he ▸ Node.mem_children_of_replaced hr)
      · exact h.top q hq
    | @tail p c hpb hc ih =>
      -- what holds a node that was there was there itself
      have hp : p.index < e.store.size := by
        by_contra hge
        have hpc : p ≠ e.current := by
          rintro rfl
          exact hge hcur
        rw [hkids, Function.update_of_ne hpc] at hc
        rcases hp.holds p (Nat.le_of_not_lt hge) c hc with hc | hc
        · cases hc
        · exact Nat.not_lt.2 hc.1 hlt
      obtain ⟨hin, hnot⟩ := ih hp
      have hpK : p ∈ K := h.forest.below_mem h.root hin
      obtain ⟨hcp, hkept⟩ := (held hpK hlt).1 hc
      refine ⟨hin.tail hcp, ?_⟩
      rintro ⟨r, hr, hb⟩
      have hrc := Node.mem_children_of_replaced hr
      by_cases hrx : r = c
      · subst hrx
        exact hkept ⟨h.forest.holder p hpK _ h.current r hcp hrc, hr⟩
      · exact hnot ⟨r, hr, h.forest.below_holder (h.forest.closed _ h.current r hrc) hpK hcp hb hrx⟩
  · rintro ⟨hin, hnot⟩
    rw [InTree, hroot]
    induction hin with
    | refl => exact .refl _
    | @tail p c hpb hc ih =>
      have hpK : p ∈ K := h.forest.below_mem h.root hpb
      refine (ih hpK fun hr => hnot (hr.trans (.kid hc))).tail ((held hpK (h.inside c hx)).2 ⟨hc, ?_⟩)
      rintro ⟨-, hr⟩
      exact hnot (.of_mem hr)

namespace Editing

variable {σ : Editing} {K K' : Set NodeId} {x : NodeId}

/-! ## Matches to be visited -/

/-- All matches that are still to be visited are in the tree. -/
def Holds (σ : Editing) : Prop := ∀ x, σ.Awaits x → σ.editor.InTree x

theorem awaits_of_next? (hx : σ.next? = some x) : σ.Awaits x := by
  unfold next? at hx
  obtain ⟨v, hv, hp⟩ := Option.bind_eq_some_iff.1 hx
  exact ⟨v, List.mem_of_mem_head? hv, List.mem_of_mem_head? hp⟩

/-- An operation leaves the searches as they are. -/
theorem visits_operate (f : Editor → Editor.Result) : (σ.operate f).visits = σ.visits := by
  unfold Editing.operate
  split <;> rfl

/-- A match that is to be visited was so before a move, or is what a search has found. -/
theorem awaits_step {m : Move} (hx : (σ.step m).Awaits x) : σ.Awaits x ∨
    (∃ spec, m = .find spec ∧ x ∈ (σ.editor.findAll spec).1) ∨
      ∃ pattern, m = .findPattern pattern ∧ x ∈ (σ.editor.findPattern pattern).1 := by
  obtain ⟨v, hv, hp⟩ := hx
  cases m with
  | gotoChild field => exact .inl ⟨v, visits_operate (fun e => e.gotoChild field) ▸ hv, hp⟩
  | gotoElement field index => exact .inl ⟨v, visits_operate (fun e => e.gotoElement field index) ▸ hv, hp⟩
  | gotoParent => exact .inl ⟨v, visits_operate Editor.gotoParent ▸ hv, hp⟩
  | insert position code => exact .inl ⟨v, visits_operate (fun e => e.insert position code) ▸ hv, hp⟩
  | wrap code => exact .inl ⟨v, visits_operate (fun e => e.wrap code) ▸ hv, hp⟩
  | change method value => exact .inl ⟨v, visits_operate (fun e => e.change method value) ▸ hv, hp⟩
  | find spec =>
    rcases List.mem_cons.1 hv with rfl | hv
    · exact .inr (.inl ⟨spec, rfl, hp⟩)
    · exact .inl ⟨v, hv, hp⟩
  | findPattern pattern =>
    rcases List.mem_cons.1 hv with rfl | hv
    · exact .inr (.inr ⟨pattern, rfl, hp⟩)
    · exact .inl ⟨v, hv, hp⟩
  | visit =>
    rw [Editing.step] at hv
    split at hv
    next home id pending visits hvs =>
      rcases List.mem_cons.1 hv with rfl | hv
      · exact .inl ⟨_, hvs ▸ List.mem_cons_self, List.mem_cons_of_mem id hp⟩
      · exact .inl ⟨v, hvs ▸ List.mem_cons_of_mem _ hv, hp⟩
    next => exact .inl ⟨v, hv, hp⟩
  | leave =>
    rw [Editing.step] at hv
    split at hv
    next u visits hvs => exact .inl ⟨v, hvs ▸ List.mem_cons_of_mem _ hv, hp⟩
    next => exact .inl ⟨v, hv, hp⟩
  | scrap trees => exact .inl ⟨v, hv, hp⟩

/-- A match stays to be visited until it is, or its search ends before that. -/
theorem step_awaits {m : Move} (hx : σ.Awaits x) (hvisit : m = .visit → σ.next? ≠ some x) (hleave : m = .leave → σ.next? = none) :
    (σ.step m).Awaits x := by
  obtain ⟨v, hv, hp⟩ := hx
  cases m with
  | gotoChild field => exact ⟨v, (visits_operate fun e => e.gotoChild field).symm ▸ hv, hp⟩
  | gotoElement field index => exact ⟨v, (visits_operate fun e => e.gotoElement field index).symm ▸ hv, hp⟩
  | gotoParent => exact ⟨v, (visits_operate Editor.gotoParent).symm ▸ hv, hp⟩
  | insert position code => exact ⟨v, (visits_operate fun e => e.insert position code).symm ▸ hv, hp⟩
  | wrap code => exact ⟨v, (visits_operate fun e => e.wrap code).symm ▸ hv, hp⟩
  | change method value => exact ⟨v, (visits_operate fun e => e.change method value).symm ▸ hv, hp⟩
  | find spec => exact ⟨v, List.mem_cons_of_mem _ hv, hp⟩
  | findPattern pattern => exact ⟨v, List.mem_cons_of_mem _ hv, hp⟩
  | visit =>
    rw [Editing.step]
    split
    next home id pending visits hvs =>
      rw [hvs] at hv
      rcases List.mem_cons.1 hv with rfl | hv
      · rcases List.mem_cons.1 hp with rfl | hp
        · exact absurd (by simp [next?, hvs]) (hvisit rfl)
        · exact ⟨_, List.mem_cons_self, hp⟩
      · exact ⟨v, List.mem_cons_of_mem _ hv, hp⟩
    next => exact ⟨v, hv, hp⟩
  | leave =>
    rw [Editing.step]
    split
    next u visits hvs =>
      rw [hvs] at hv
      rcases List.mem_cons.1 hv with rfl | hv
      · have hnone := hleave rfl
        simp only [next?, hvs, List.head?_cons, Option.bind_some, List.head?_eq_none_iff] at hnone
        simp [hnone] at hp
      · exact ⟨v, hv, hp⟩
    next => exact ⟨v, hv, hp⟩
  | scrap trees => exact ⟨v, hv, hp⟩

/-- A move that loses no match leaves all of them in the tree. -/
theorem step_holds (h : Known σ K) (held : σ.Holds) {m : Move} (hm : ¬ Loses σ m) : (σ.step m).Holds := by
  intro x hx
  -- what a search in the tree finds is in the tree
  have found {l : List NodeId} (hbelow : ∀ y ∈ l, Below σ.editor.store.children σ.editor.current y)
      (hlost : ¬ σ.editor.InTree σ.editor.current → l ≠ [] → Loses σ m) (hl : x ∈ l) : σ.editor.InTree x := by
    rw [inTree_below h.sound h.sound.current (hbelow x hl)]
    by_contra hout
    exact hm (hlost hout (List.ne_nil_of_mem hl))
  rcases awaits_step hx with hbefore | ⟨spec, rfl, hl⟩ | ⟨pattern, rfl, hl⟩
  · have hin := held x hbefore
    by_cases hc : ∃ method value, m = .change method value
    · obtain ⟨method, value, rfl⟩ := hc
      refine operate_keeps (f := fun e => e.change method value) (fun e' he => ?_) hin
      by_contra hout
      exact hm (.change he hbefore hin hout)
    · exact step_keeps h (fun method value he => hc ⟨method, value, he⟩) hin
  · exact found (Editor.search_below _ _ _) .find hl
  · exact found (Editor.search_below _ _ _) .findPattern hl

/-- Setting a value loses the matches below what it replaces. -/
theorem loses_set_iff (h : Known σ K) (held : σ.Holds) {value : ChangeValue} {e' : Editor} (he : σ.editor.set value = .ok e') :
    Loses σ (.change .set value) ↔ ∃ x, σ.Awaits x ∧ Reach σ.editor.store.children σ.editor.node.replaced x := by
  have known {x : NodeId} (hx : σ.Awaits x) : x ∈ K := by
    obtain ⟨v, hv, hp⟩ := hx
    exact (h.visits v hv).2 x hp
  constructor
  · intro hloses
    cases hloses with
    | @change _ _ e'' x he'' hx hin hout =>
      refine ⟨x, hx, ?_⟩
      rw [Editor.set_inTree_iff h.sound (known hx) he''] at hout
      by_contra hr
      exact hout ⟨hin, hr⟩
  · rintro ⟨x, hx, hr⟩
    refine .change he hx (held x hx) ?_
    rw [Editor.set_inTree_iff h.sound (known hx) he]
    exact fun hin => hin.2 hr

/-! ## Runs -/

/-- Every search has visited all its matches when it ends. -/
def Orderly : Editing → List Move → Prop
  | _, [] => True
  | σ, m :: moves => (m = .leave → σ.next? = none) ∧ Orderly (σ.step m) moves

theorem orderly_append {moves more : List Move} : Orderly σ (moves ++ more) ↔ Orderly σ moves ∧ Orderly (σ.run moves) more := by
  induction moves generalizing σ with
  | nil => simp [Orderly, run_nil]
  | cons m moves ih => rw [List.cons_append, Orderly, Orderly, ih, run_cons, and_assoc]

/-- An orderly run that ends with no search under way. -/
structure Complete (σ : Editing) (moves : List Move) : Prop where
  orderly : Orderly σ moves
  ends : (σ.run moves).visits = []

namespace Complete

theorem tail {m : Move} {moves : List Move} (h : Complete σ (m :: moves)) : Complete (σ.step m) moves :=
  ⟨h.orderly.2, h.ends⟩

/-- A match that is to be visited will be. -/
theorem visits {moves : List Move} (h : Complete σ moves) (hx : σ.Awaits x) :
    ∃ before, before ++ [.visit] <+: moves ∧ (σ.run before).next? = some x := by
  induction moves generalizing σ with
  | nil =>
    obtain ⟨v, hv, -⟩ := hx
    rw [show σ.visits = [] from h.ends] at hv
    cases hv
  | cons m moves ih =>
    by_cases hnow : m = .visit ∧ σ.next? = some x
    · obtain ⟨rfl, hnext⟩ := hnow
      exact ⟨[], by simp, hnext⟩
    · have hvisit (hm : m = .visit) : σ.next? ≠ some x := fun hn => hnow ⟨hm, hn⟩
      obtain ⟨before, hb, hnext⟩ := ih h.tail (step_awaits hx hvisit h.orderly.1)
      exact ⟨m :: before, List.cons_prefix_cons.2 ⟨rfl, hb⟩, hnext⟩

end Complete

/-- Whenever a match is visited, it is in the tree. -/
def VisitsInTree (σ : Editing) (moves : List Move) : Prop :=
  ∀ before x, before ++ [.visit] <+: moves → (σ.run before).next? = some x → (σ.run before).editor.InTree x

theorem VisitsInTree.tail {m : Move} {moves : List Move} (h : VisitsInTree σ (m :: moves)) : VisitsInTree (σ.step m) moves :=
  fun before x hb => h (m :: before) x (List.cons_prefix_cons.2 ⟨rfl, hb⟩)

/-- A match that is taken out of the tree is visited there. -/
theorem Complete.not_visitsInTree {moves : List Move} (h : Known σ K) (hc : Complete σ moves) (hx : σ.Awaits x)
    (hout : ¬ σ.editor.InTree x) : ¬ VisitsInTree σ moves := by
  intro hall
  obtain ⟨before, hb, hnext⟩ := hc.visits hx
  obtain ⟨v, hv, hp⟩ := hx
  exact hout (run_inTree h before ((h.visits v hv).2 x hp) (hall before x hb hnext))

/-- A move that loses a match leaves it to be visited out of the tree. -/
theorem Loses.awaits (h : Known σ K) {m : Move} (hm : Loses σ m) :
    ∃ x, (σ.step m).Awaits x ∧ ¬ (σ.step m).editor.InTree x := by
  -- all that a search out of the tree finds is out of it
  have out {l : List NodeId} (hbelow : ∀ y ∈ l, Below σ.editor.store.children σ.editor.current y)
      (hout : ¬ σ.editor.InTree σ.editor.current) (hl : l ≠ []) : ∃ x ∈ l, ¬ σ.editor.InTree x := by
    obtain ⟨x, hx⟩ := List.exists_mem_of_ne_nil l hl
    refine ⟨x, hx, ?_⟩
    rwa [inTree_below h.sound h.sound.current (hbelow x hx)]
  cases hm with
  | @change method value e' x he hx hin hout =>
    have hstep : (σ.step (.change method value)).editor = e' := by simp [Editing.step, operate, he]
    refine ⟨x, step_awaits hx (by simp) (by simp), ?_⟩
    rwa [hstep]
  | @find spec hout hfound =>
    obtain ⟨x, hx, hxout⟩ := out (Editor.search_below _ _ _) hout hfound
    exact ⟨x, ⟨_, List.mem_cons_self, hx⟩, hxout⟩
  | @findPattern pattern hout hfound =>
    obtain ⟨x, hx, hxout⟩ := out (Editor.search_below _ _ _) hout hfound
    exact ⟨x, ⟨_, List.mem_cons_self, hx⟩, hxout⟩

/-- All matches are visited in the tree exactly if no move loses one. -/
theorem visits_inTree_iff (h : Known σ K) (held : σ.Holds) {moves : List Move} (hc : Complete σ moves) :
    VisitsInTree σ moves ↔ ∀ before m, before ++ [m] <+: moves → ¬ Loses (σ.run before) m := by
  induction moves generalizing σ K with
  | nil => simp [VisitsInTree]
  | cons m moves ih =>
    obtain ⟨K', -, hk⟩ := step_known h m
    constructor
    · intro hall before m' hb hloses
      cases before with
      | nil =>
        obtain ⟨rfl, -⟩ := List.cons_prefix_cons.1 hb
        obtain ⟨x, hx, hout⟩ := hloses.awaits h
        exact hc.tail.not_visitsInTree hk hx hout hall.tail
      | cons m₀ before =>
        obtain ⟨rfl, hmoves⟩ := List.cons_prefix_cons.1 hb
        -- nothing was lost before, so all is as at the start
        have hstep : (σ.step m₀).Holds := by
          intro x hx
          by_contra hout
          exact hc.tail.not_visitsInTree hk hx hout hall.tail
        exact (ih hk hstep hc.tail).1 hall.tail before m' hmoves hloses
    · intro hnone before x hb hnext
      cases before with
      | nil => exact held x (awaits_of_next? hnext)
      | cons m' before =>
        obtain ⟨rfl, hmoves⟩ := List.cons_prefix_cons.1 hb
        have hstep := step_holds h held (hnone [] m' (by simp))
        refine (ih hk hstep hc.tail).2 (fun before m hb => ?_) before x hmoves hnext
        exact hnone (m' :: before) m (List.cons_prefix_cons.2 ⟨rfl, hb⟩)

end Editing
end Graft
