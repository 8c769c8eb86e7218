import Graft.Proofs.Edit.Steps
import Graft.Proofs.Edit.Overlay
/-!
# Chains under edits

A chain of a store is open if it has an optional link, `Store.Open`. In a sealed store every node closes off the chains below it,
except those that it goes on from itself. No edit writes over a link, what it puts in place of another node is never open, and the
trees of its code are sealed, so whatever an edit attaches, chains end where they ended (`Editing.run_chainsEnd`).
-/

namespace Graft
namespace Store

variable {s s' s'' : Store} {n : Node NodeId} {w x c : NodeId} {t : Tree}

/-! ## Open chains -/

/-- What the chain goes on from that ends at the node. -/
def spine (s : Store) (x : NodeId) : List NodeId := (s.get x).spine

/-- The chain that ends at the node has an optional link. -/
def Open (s : Store) (x : NodeId) : Prop := ∃ y, Below s.spine x y ∧ (s.get y).isOptional = true

theorem open_iff : s.Open x ↔ (s.get x).Opens s.Open := by
  constructor
  · rintro ⟨y, hy, ho⟩
    rcases Relation.ReflTransGen.cases_head hy with rfl | ⟨c, hc, hcy⟩
    · exact .inl ho
    · exact .inr ⟨c, hc, y, hcy, ho⟩
  · rintro (ho | ⟨c, hc, y, hy, ho⟩)
    · exact ⟨x, .refl x, ho⟩
    · exact ⟨y, (Below.kid hc).trans hy, ho⟩

/-- What goes up along chains, from optional links on, holds of all open ones. -/
theorem Open.rise {P : NodeId → Prop} (h : s.Open x) (up : ∀ y, (s.get y).Opens P → P y) : P x := by
  obtain ⟨y, hy, ho⟩ := h
  induction hy using Relation.ReflTransGen.head_induction_on with
  | refl => exact up y (.inl ho)
  | @head z c hc _ ih => exact up z (.inr ⟨c, hc, ih⟩)

theorem not_open (h : (s.get x).isUnchained = true) : ¬ s.Open x := fun ho => Node.not_opens h (open_iff.1 ho)

theorem mem_children_of_spine (h : c ∈ s.spine x) : c ∈ s.children x := Node.mem_children_iff.2 (.inl h)

theorem open_grown (hs : s.Closed) (h : Keeps s s') (hx : x.index < s.size) : s'.Open x ↔ s.Open x := by
  have inside (y : NodeId) (hy : Below s.spine x y) : y.index < s.size :=
    hs.below hx (hy.mono fun _ _ => mem_children_of_spine)
  have agree (y : NodeId) (hy : Below s.spine x y) : s'.spine y = s.spine y := by rw [spine, h.get y (inside y hy), spine]
  refine exists_congr fun y => ?_
  rw [Below.agree_iff agree]
  exact and_congr_right fun hy => by rw [h.get y (inside y hy)]

/-- A write that neither replaces a link nor is one of an open chain. -/
theorem open_set (hw : (s.get w).isUnchained = true) (hn : ¬ n.Opens s.Open) : (s.set w n).Open x ↔ s.Open x := by
  constructor
  · intro ho
    refine ho.rise fun y hy => ?_
    by_cases he : y = w
    · subst he
      rcases Nat.lt_or_ge y.index s.size with hlt | hge
      · rw [get_set_self hlt] at hy
        exact absurd hy hn
      · rw [get_of_size_le (size_set.trans_le hge)] at hy
        exact absurd hy (Node.not_opens rfl)
    · rw [get_set_of_ne he] at hy
      exact open_iff.2 hy
  · intro ho
    refine ho.rise fun y hy => ?_
    by_cases he : y = w
    · rw [he] at hy
      exact absurd hy (Node.not_opens hw)
    · rw [← get_set_of_ne he] at hy
      exact open_iff.2 hy

/-- An inserted tree is open where it was, also when the store has grown further. -/
theorem open_insert (hkeeps : Keeps (s.insert t).2 s') : s'.Open (s.insert t).1 ↔ t.isOpenChain = true := by
  induction t using Tree.induct generalizing s with
  | mk n ih =>
    obtain ⟨pairs, hfst, hsnd, hpairs⟩ := exists_beside n s
    rw [open_iff, hkeeps.get_insert, ← hsnd, Node.opens_map, Tree.isOpenChain_iff]
    rw [show (Tree.mk n).node = n from rfl, ← hfst, Node.opens_map]
    refine Node.opens_congr fun p hp => ?_
    obtain ⟨hmem, s₀, hp₂, hkeeps₀⟩ := hpairs p hp
    rw [hp₂]
    exact ih p.1 hmem (hkeeps₀.trans hkeeps.of_insert)

/-! ## Sealed stores -/

/-- Every node of the store closes off the chains below it. -/
structure Sealed (s : Store) : Prop where
  inside : s.Closed
  closes : ∀ x, (s.get x).Closes s.Open

/-- A node of the store that ends no open chain. -/
structure Shut (s : Store) (x : NodeId) : Prop where
  inside : x.index < s.size
  closed : ¬ s.Open x

/-- A change after which the store is sealed, and that opens no chain. -/
structure Seals (s s' : Store) : Prop where
  sealed : s'.Sealed
  root : s'.root = s.root
  shut : ∀ {x}, s.Shut x → s'.Shut x

theorem Sealed.empty : Store.empty.Sealed where
  inside p c hc := by
    rw [children_of_size_le (Nat.zero_le _)] at hc
    cases hc
  closes x := by
    rw [get_of_size_le (Nat.zero_le _), Node.closes_iff rfl]
    nofun

theorem Sealed.shut_kid (h : s.Sealed) (hx : (s.get x).isUnchained = true) (hc : c ∈ (s.get x).children) : s.Shut c :=
  ⟨h.inside x c hc, (Node.closes_iff hx).1 (h.closes x) c hc⟩

theorem shut_insert (ho : t.isOpenChain = false) : (s.insert t).2.Shut (s.insert t).1 := by
  refine ⟨index_insert t s, ?_⟩
  rw [open_insert (.refl _), ho]
  nofun

namespace Seals

theorem refl (h : s.Sealed) : Seals s s := ⟨h, rfl, id⟩

theorem trans (h : Seals s s') (h' : Seals s' s'') : Seals s s'' where
  sealed := h'.sealed
  root := h'.root.trans h.root
  shut hx := h'.shut (h.shut hx)

theorem set (h : s.Sealed) (hw : (s.get w).isUnchained = true) (hin : ∀ c ∈ n.children, c.index < s.size)
    (hn : n.Closes s.Open) (ho : ¬ n.Opens s.Open) : Seals s (s.set w n) := by
  have same (x : NodeId) : s.Open x ↔ (s.set w n).Open x := (open_set hw ho).symm
  -- a node of the new store is one of the old, or the one that was written
  have place (x : NodeId) : (s.set w n).get x = s.get x ∨ (s.set w n).get x = n := by
    by_cases he : x = w
    · subst he
      rcases Nat.lt_or_ge x.index s.size with hlt | hge
      · exact .inr (get_set_self hlt)
      · exact .inl ((get_of_size_le (size_set.trans_le hge)).trans (get_of_size_le hge).symm)
    · exact .inl (get_set_of_ne he)
  refine ⟨⟨fun x c hc => ?_, fun x => Node.closes_congr (fun c _ => same c) ?_⟩, rfl, fun {x} hx => ⟨?_, ?_⟩⟩
  · rw [children] at hc
    rw [size_set]
    rcases place x with he | he
    · rw [he] at hc
      exact h.inside x c hc
    · rw [he] at hc
      exact hin c hc
  · rcases place x with he | he
    · rw [he]
      exact h.closes x
    · rw [he]
      exact hn
  · rw [size_set]
    exact hx.inside
  · rw [← same]
    exact hx.closed

/-- A write of a node that is no link, over one that is none. -/
theorem write (h : s.Sealed) (hw : (s.get w).isUnchained = true) (hn : n.isUnchained = true) (hc : ∀ c ∈ n.children, s.Shut c) :
    Seals s (s.set w n) := by
  refine set h hw (fun c hcn => (hc c hcn).inside) ?_ (Node.not_opens hn)
  rw [Node.closes_iff hn]
  exact fun c hcn => (hc c hcn).closed

theorem alloc (h : s.Sealed) (hin : ∀ c ∈ n.children, c.index < s.size) (hn : n.Closes s.Open) : Seals s (s.alloc n).2 := by
  have grown : Keeps s (s.alloc n).2 := ⟨(Extends.alloc s n).size, (Extends.alloc s n).get⟩
  have same {x : NodeId} (hx : x.index < s.size) : s.Open x ↔ (s.alloc n).2.Open x := (open_grown h.inside grown hx).symm
  refine ⟨⟨h.inside.alloc hin, fun x => ?_⟩, rfl, fun hx => ⟨hx.inside.trans_le grown.size, ?_⟩⟩
  · rcases Nat.lt_trichotomy x.index s.size with hlt | heq | hgt
    · rw [get_alloc_of_lt hlt]
      exact Node.closes_congr (fun c hc => same (h.inside x c hc)) (h.closes x)
    · obtain rfl : x = (s.alloc n).1 := by cases x; cases heq; rfl
      rw [get_alloc_self]
      exact Node.closes_congr (fun c hc => same (hin c hc)) hn
    · rw [get_of_size_le (by rw [size_alloc]; omega), Node.closes_iff rfl]
      nofun
  · rw [← same hx.inside]
    exact hx.closed

/-- A new node that is no link. -/
theorem new (h : s.Sealed) (hn : n.isUnchained = true) (hc : ∀ c ∈ n.children, s.Shut c) :
    Seals s (s.alloc n).2 ∧ (s.alloc n).2.Shut (s.alloc n).1 := by
  have hcloses : n.Closes s.Open := by
    rw [Node.closes_iff hn]
    exact fun c hcn => (hc c hcn).closed
  refine ⟨alloc h (fun c hcn => (hc c hcn).inside) hcloses, ?_, not_open ?_⟩
  · rw [index_alloc, size_alloc]
    exact Nat.lt_succ_self _
  · rwa [get_alloc_self]

/-- A sealed tree is inserted. -/
theorem insert (h : s.Sealed) (ht : t.Sealed) : Seals s (s.insert t).2 := by
  induction t using Tree.induct generalizing s with
  | mk n ih =>
    have hkids : Seals s (n.traverse (Tree.fold insertNode) s).2 :=
      traverse_keeps (fun t htn s' hs' => hs'.trans (ih t htn hs'.sealed (ht.children t htn))) (refl h)
    obtain ⟨pairs, hfst, hsnd, hpairs⟩ := exists_beside n s
    rw [insert_mk]
    refine hkids.trans (alloc hkids.sealed ?_ ?_)
    · intro c hc
      rw [← hsnd, Node.children_map] at hc
      obtain ⟨p, hp, rfl⟩ := List.mem_map.1 hc
      obtain ⟨-, s₀, hp₂, hkeeps⟩ := hpairs p hp
      rw [hp₂]
      exact (index_insert p.1 s₀).trans_le hkeeps.size
    · rw [← hsnd, Node.closes_map]
      have hcloses := ht.closes
      rw [← hfst, Node.closes_map] at hcloses
      refine Node.closes_congr (fun p hp => ?_) hcloses
      obtain ⟨-, s₀, hp₂, hkeeps⟩ := hpairs p hp
      rw [hp₂, open_insert hkeeps]

theorem insertAll {ts : List Tree} (h : s.Sealed) (hts : ∀ t ∈ ts, t.Sealed) : Seals s (s.insertAll ts).2 :=
  insertAll_keeps (fun t ht _ hs => hs.trans (insert hs.sealed (hts t ht))) (refl h)

theorem shut_insertAll {ts : List Tree} (h : s.Sealed) (hts : ∀ t ∈ ts, t.Sealed ∧ t.isOpenChain = false) :
    ∀ x ∈ (s.insertAll ts).1, (s.insertAll ts).2.Shut x := by
  induction ts with
  | nil => nofun
  | cons t ts ih =>
    have hrest : (s.insertAll ts).2.Sealed := (insertAll h fun u hu => (hts u (List.mem_cons_of_mem t hu)).1).sealed
    obtain ⟨ht, ho⟩ := hts t List.mem_cons_self
    intro x hx
    rcases List.mem_cons.1 (show x ∈ ((s.insertAll ts).2.insert t).1 :: (s.insertAll ts).1 from hx) with rfl | hx
    · exact shut_insert ho
    · exact (insert hrest ht).shut (ih (fun u hu => hts u (List.mem_cons_of_mem t hu)) x hx)

end Seals
end Store

/-! ## Edits -/

namespace Editor

variable {e e' : Editor} {code : String} {target body : NodeId} {members : List NodeId} {s : Store}

theorem insertExpression_seals {id : NodeId} (h : e.store.Sealed) (hc : e.insertExpression code = .ok (id, s)) :
    e.store.Seals s ∧ s.Shut id := by
  unfold insertExpression at hc
  split at hc
  next => cases hc
  next t ht =>
    have hfills := Source.readExpression_fills ht
    have hm := And.intro (Store.Seals.insert h hfills.sealed) (Store.shut_insert (s := e.store) hfills.closed)
    rwa [Except.ok.inj hc] at hm

theorem insertStatements_seals {ids : List NodeId} (h : e.store.Sealed) (hc : e.insertStatements code = .ok (ids, s)) :
    e.store.Seals s ∧ ∀ x ∈ ids, s.Shut x := by
  have all {body : List Tree} (hb : ∀ t ∈ body, t.Sealed ∧ t.isOpenChain = false)
      (hc : Except.ok (e.store.insertAll body) = (.ok (ids, s) : Except EditError _)) :
      e.store.Seals s ∧ ∀ x ∈ ids, s.Shut x := by
    have hm := And.intro (Store.Seals.insertAll h fun t ht => (hb t ht).1) (Store.Seals.shut_insertAll h hb)
    rwa [Except.ok.inj hc] at hm
  unfold insertStatements at hc
  split at hc
  next => cases hc
  next body hr =>
    have hblock := Source.readStatements_fills hr _ (List.mem_singleton_self _)
    exact all (fun t ht => hblock.sealed.kids rfl t (by simpa using ht)) hc
  next body _ hr =>
    refine all (fun t ht => ?_) hc
    have hfills := Source.readStatements_fills hr t ht
    exact ⟨hfills.sealed, hfills.closed⟩

theorem insert_seals (h : e.store.Sealed) {position : InsertPosition} (he : e.insert position code = .ok e') :
    e.store.Seals e'.store := by
  obtain ⟨owner, index, statements, s, hpoint, hread, rfl⟩ := insert_ok he
  obtain ⟨list, hlist⟩ := insertionPoint_statements hpoint
  obtain ⟨hs, hshut⟩ := insertStatements_seals h hread
  have hget : s.get owner = e.store.get owner :=
    (insertStatements_planted hread).get owner (index_lt_of_get fun hn => by simp [hn, Node.statements?] at hlist)
  rw [← hget] at hlist
  obtain ⟨hplain, hnew⟩ := Node.isUnchained_of_statements hlist
  obtain ⟨others, hkids, hkids'⟩ := Node.children_withStatements hlist (list.take index ++ statements ++ list.drop index)
  have old {c : NodeId} (hc : c ∈ others ++ list) : s.Shut c := hs.sealed.shut_kid hplain (hkids ▸ hc)
  refine hs.trans ?_
  dsimp only [splice]
  rw [hlist, Option.getD_some]
  refine .write hs.sealed hplain (hnew _) fun c hc => ?_
  rw [hkids'] at hc
  simp only [List.mem_append] at hc
  rcases hc with hc | (hc | hc) | hc
  · exact old (List.mem_append_left _ hc)
  · exact old (List.mem_append_right _ (List.mem_of_mem_take hc))
  · exact hshut c hc
  · exact old (List.mem_append_right _ (List.mem_of_mem_drop hc))

/-! ### Wrapping -/

section Wrap

theorem bodyStatements_seals (h : s.Sealed) (hb : s.Shut body) :
    s.Seals (bodyStatements s body).2 ∧ ∀ c ∈ (bodyStatements s body).1, (bodyStatements s body).2.Shut c := by
  unfold bodyStatements
  split
  next statements hn => exact ⟨.refl h, fun c hc => h.shut_kid (by rw [hn]; rfl) (by rwa [hn, Node.children_blockStatement])⟩
  next =>
    obtain ⟨hseals, hshut⟩ := Store.Seals.new (n := .returnStatement (some body)) h rfl (by simpa using hb)
    exact ⟨hseals, by simpa using hshut⟩

theorem blockBody_seals (h : s.Sealed) (hb : s.Shut body) :
    s.Seals (blockBody s body).2 ∧ (blockBody s body).2.Shut (blockBody s body).1 := by
  unfold blockBody
  split
  next => exact ⟨.refl h, hb⟩
  next =>
    obtain ⟨hseals, hshut⟩ := bodyStatements_seals h hb
    obtain ⟨hblock, hshut'⟩ :=
      Store.Seals.new (n := .blockStatement (bodyStatements s body).1) hseals.sealed rfl (by simpa using hshut)
    exact ⟨hseals.trans hblock, hshut'⟩

theorem allocInner_seals {original : Func NodeId} (h : s.Sealed) (hp : ∀ c ∈ original.params, s.Shut c)
    (hb : s.Shut original.body) (name : String) :
    s.Seals (allocInner s original name).2 ∧ (allocInner s original name).2.Shut (allocInner s original name).1 := by
  obtain ⟨hblock, hbody⟩ := blockBody_seals h hb
  obtain ⟨block, s₁, hs₁⟩ : ∃ block s₁, blockBody s original.body = (block, s₁) := ⟨_, _, rfl⟩
  rw [hs₁] at hblock hbody
  obtain ⟨hname, hid⟩ := Store.Seals.new (n := .identifier name) hblock.sealed rfl nofun
  obtain ⟨id, s₂, hs₂⟩ : ∃ id s₂, s₁.alloc (.identifier name) = (id, s₂) := ⟨_, _, rfl⟩
  rw [hs₂] at hname hid
  have hkids : ∀ c ∈ (Node.functionDeclaration { original with id := some id, body := block }).children, s₂.Shut c := by
    intro c hc
    rw [Node.children_functionDeclaration] at hc
    simp only [Option.toList_some, List.mem_append, List.mem_singleton] at hc
    rcases hc with (rfl | hc) | rfl
    · exact hid
    · exact hname.shut (hblock.shut (hp c hc))
    · exact hname.shut hbody
  obtain ⟨hinner, hshut⟩ := Store.Seals.new hname.sealed rfl hkids
  simp only [allocInner, hs₁, hs₂]
  exact ⟨(hblock.trans hname).trans hinner, hshut⟩

theorem allocOuter_seals {inner : NodeId} (h : s.Sealed) (hi : s.Shut inner) (hb : s.Shut body) :
    s.Seals (allocOuter s inner body).2 ∧ (allocOuter s inner body).2.Shut (allocOuter s inner body).1 := by
  obtain ⟨hseals, hshut⟩ := bodyStatements_seals h hb
  obtain ⟨houter, hshut'⟩ := Store.Seals.new (n := .blockStatement (inner :: (bodyStatements s body).1)) hseals.sealed rfl (by
    simpa using ⟨hseals.shut hi, hshut⟩)
  exact ⟨hseals.trans houter, hshut'⟩

theorem wrapFunction_seals (h : e.store.Sealed) {original wrapper : Func NodeId}
    (ht : (e.store.get target).func? = some original) (hp : ∀ c ∈ wrapper.params, e.store.Shut c)
    (hb : e.store.Shut wrapper.body) (name : String) : e.store.Seals (e.wrapFunction target original wrapper name).store := by
  have hin : target.index < e.store.size := index_lt_of_get fun hn => by simp [hn, Node.func?] at ht
  have kids {c : NodeId} (hc : c ∈ original.id.toList ++ original.params ++ [original.body]) : e.store.Shut c :=
    h.shut_kid (Node.isUnchained_of_func ht).1 (Node.children_of_func ht ▸ hc)
  have hparams (c : NodeId) (hc : c ∈ original.params) : e.store.Shut c := kids (by simp [hc])
  have hbody : e.store.Shut original.body := kids (by simp)
  obtain ⟨hinner, hshut⟩ := allocInner_seals h hparams hbody name
  obtain ⟨held, hext⟩ := (allocInner_spec e.store original name).grown
  obtain ⟨inner, s, hs⟩ : ∃ inner s, allocInner e.store original name = (inner, s) := ⟨_, _, rfl⟩
  rw [hs] at hinner hshut hext
  obtain ⟨houter, hshut'⟩ := allocOuter_seals hinner.sealed hshut (hinner.shut hb)
  obtain ⟨held', hext'⟩ := (allocOuter_spec s inner wrapper.body).grown
  obtain ⟨body, s', hs'⟩ : ∃ body s', allocOuter s inner wrapper.body = (body, s') := ⟨_, _, rfl⟩
  rw [hs'] at houter hshut' hext'
  have ht' : (s'.get target).func? = some original := by rw [(hext.trans hext').get target hin, ht]
  have still := hinner.trans houter
  obtain ⟨hplain, hnew⟩ := Node.isUnchained_of_func ht'
  simp only [wrapFunction_eq, hs, hs']
  refine still.trans (.write still.sealed hplain (hnew _) fun c hc => ?_)
  rw [Node.children_withFunc ht'] at hc
  simp only [List.mem_append, List.mem_singleton] at hc
  rcases hc with (hc | hc) | rfl
  · exact still.shut (kids (by simp [hc]))
  · exact still.shut (hp c (List.mem_of_mem_tail hc))
  · exact hshut'

end Wrap

theorem wrap_seals (h : e.store.Sealed) (he : e.wrap code = .ok e') : e.store.Seals e'.store := by
  obtain ⟨original, id, s, wrapper, name, ho, hread, hw, rfl⟩ := wrap_ok he
  obtain ⟨hs, -⟩ := insertExpression_seals h hread
  have hcur : e.current.index < e.store.size := index_lt_of_get fun hn => by simp [node, hn, Node.func?] at ho
  have ho' : (s.get e.current).func? = some original := by
    rw [(insertExpression_planted hread).get e.current hcur]
    exact ho
  have kids {c : NodeId} (hc : c ∈ wrapper.id.toList ++ wrapper.params ++ [wrapper.body]) : s.Shut c := by
    apply hs.sealed.shut_kid (x := id)
    · rw [hw]
      rfl
    · rw [hw, Node.children_of_func rfl]
      exact hc
  have hparams (c : NodeId) (hc : c ∈ wrapper.params) : s.Shut c := kids (by simp [hc])
  exact hs.trans (wrapFunction_seals (e := { e with store := s }) hs.sealed ho' hparams (kids (by simp)) name)

/-! ### Changing -/

theorem setPropertyValue_seals {property value : NodeId} (h : e.store.Sealed) (hv : e.store.Shut value) :
    e.store.Seals (e.setPropertyValue property value).store := by
  unfold setPropertyValue
  split
  next key old kind computed shorthand method hn =>
    have hplain : (e.store.get property).isUnchained = true := by rw [hn]; rfl
    have hkey : e.store.Shut key := h.shut_kid hplain (by rw [hn]; simp)
    exact .write h hplain rfl (by simpa using ⟨hkey, hv⟩)
  next => exact .refl h

theorem appendMember_seals {object member : NodeId} (h : e.store.Sealed) (hm : e.store.Shut member) :
    e.store.Seals (e.appendMember object member).store := by
  unfold appendMember
  split
  next properties hn =>
    have hplain : (e.store.get object).isUnchained = true := by rw [hn]; rfl
    refine .write h hplain rfl fun c hc => ?_
    rw [Node.children_objectExpression] at hc
    rcases List.mem_append.1 hc with hc | hc
    · exact h.shut_kid hplain (by rwa [hn, Node.children_objectExpression])
    · rwa [List.mem_singleton.1 hc]
  next => exact .refl h

theorem shut_member (h : e.store.Sealed) {object : NodeId} (ho : e.store.isObject object = true) :
    ∀ m ∈ e.store.members object, e.store.Shut m := by
  obtain ⟨properties, hp⟩ := isObject_iff.1 ho
  intro m hm
  rw [members_eq ho] at hm
  exact h.shut_kid (by rw [hp]; rfl) hm

theorem mergeMembers_seals (depth : Nat) (h : e.store.Sealed) (hm : ∀ m ∈ members, e.store.Shut m) :
    e.store.Seals (e.mergeMembers target depth members).store := by
  induction depth generalizing e target members with
  | zero => exact .refl h
  | succ depth ih =>
    cases members with
    | nil => exact .refl h
    | cons member more =>
      have go {e₁ : Editor} (hfirst : e.store.Seals e₁.store) : e.store.Seals (e₁.mergeMembers target depth more).store :=
        hfirst.trans (ih hfirst.sealed fun m hmore => hfirst.shut (hm m (List.mem_cons_of_mem member hmore)))
      rw [mergeMembers]
      split
      next existing old new hc =>
        split
        next hobj => exact go (ih h (shut_member h (Bool.and_eq_true_iff.1 hobj).2))
        next =>
          obtain ⟨hvalue, -⟩ := counterpart?_eq_some hc
          obtain ⟨key, kind, computed, shorthand, method, hn⟩ := propertyValue?_eq_some hvalue
          exact go (setPropertyValue_seals h (h.shut_kid (x := member) (by rw [hn]; rfl) (by rw [hn]; simp)))
      next => exact go (appendMember_seals h (hm member List.mem_cons_self))

theorem update_seals (h : e.store.Sealed) {value : ChangeValue} (he : e.update value = .ok e') : e.store.Seals e'.store := by
  obtain ⟨target, source, s, -, hread, hsource, rfl⟩ := update_ok he
  obtain ⟨hs, -⟩ := insertExpression_seals h hread
  exact hs.trans (mergeMembers_seals (e := { e with store := s }) (s.size + 1) hs.sealed (shut_member hs.sealed hsource))

theorem set_seals (h : e.store.Sealed) {value : ChangeValue} (he : e.set value = .ok e') : e.store.Seals e'.store := by
  obtain ⟨new, s, n, hread, hput, hget, hstore, -⟩ := set_put he
  obtain ⟨hs, hshut⟩ := insertExpression_seals h hread
  rw [hstore]
  refine hs.trans ?_
  -- a literal may be what a chain goes on from, and what is written over it is shut as the new node is
  have copied (hplain : (s.get e.current).isUnchained = true) : s.Seals (s.set e.current (s.get new)) := by
    refine .set hs.sealed hplain (hs.sealed.inside new) (hs.sealed.closes new) ?_
    rw [← Store.open_iff]
    exact hshut.closed
  generalize e.node = old at hput hget
  cases hput with
  | declarator id init =>
    have hplain : (s.get e.current).isUnchained = true := by rw [hget]; rfl
    have hid : s.Shut id := hs.sealed.shut_kid hplain (by rw [hget]; simp)
    exact .write hs.sealed hplain rfl (by simpa using ⟨hid, hshut⟩)
  | property key value kind computed shorthand method =>
    have hplain : (s.get e.current).isUnchained = true := by rw [hget]; rfl
    have hkey : s.Shut key := hs.sealed.shut_kid hplain (by rw [hget]; simp)
    exact .write hs.sealed hplain rfl (by simpa using ⟨hkey, hshut⟩)
  | object => exact copied (by rw [hget]; rfl)
  | literal => exact copied (by rw [hget]; rfl)

theorem Edited.seals (h : e.store.Sealed) (he : e.Edited e') : e.store.Seals e'.store := by
  cases he with
  | insert position code he => exact insert_seals h he
  | wrap code he => exact wrap_seals h he
  | change method value he =>
    cases method with
    | update => exact update_seals h he
    | set => exact set_seals h he

end Editor

/-! ## Printing -/

namespace Tree
variable {n : Node Tree} {object : Tree} {c : PrintContext}

/-- What the text of a link adds to the text of what it goes on from. -/
def linkPieces : Node Tree → PrintContext → Pieces
  | .memberExpression _ member computed optional, c =>
    if computed then
      optionally optional [.mark "?."] ++ .mark "[" :: asOperand member (pieces member) Level.sequence c ++ [.mark "]"]
    else .mark (if optional then "?." else ".") :: pieces member c
  | .callExpression _ arguments optional, c =>
    optionally optional [.mark "?."] ++ [.mark "("] ++ listed arguments c ++ [.mark ")"]
  | _, _ => []

theorem pieces_member (object member : Tree) (computed optional : Bool) (c : PrintContext) :
    pieces (.mk (.memberExpression object member computed optional)) c =
      asMemberObject object (pieces object) c ++ linkPieces (.memberExpression object member computed optional) c := rfl

theorem pieces_call (callee : Tree) (arguments : List Tree) (optional : Bool) (c : PrintContext) :
    pieces (.mk (.callExpression callee arguments optional)) c =
      asChainObject callee (pieces callee) c ++ linkPieces (.callExpression callee arguments optional) c := by
  rw [linkPieces, ← List.append_assoc, ← List.append_assoc, ← List.append_assoc]
  rfl

/-- A chain that has ended prints in parentheses where another one goes on from it. -/
theorem pieces_of_ended (ho : object ∈ n.spine) (hc : object.node.isChain = true) (c : PrintContext) :
    pieces (.mk n) c = parenthesized (pieces object) c ++ linkPieces n c := by
  have hchain : asChainObject object (pieces object) = parenthesized (pieces object) := if_pos hc
  have hmember : asMemberObject object (pieces object) = parenthesized (pieces object) := by
    rw [asMemberObject, hchain, ite_self]
  cases n with
  | memberExpression =>
    obtain rfl := List.mem_singleton.1 ho
    rw [pieces_member, hmember]
  | callExpression =>
    obtain rfl := List.mem_singleton.1 ho
    rw [pieces_call, hchain]
  | _ => cases ho

/-- An open chain prints as it is where it goes on. -/
theorem pieces_of_open (ho : object ∈ n.spine) (hopen : object.isOpenChain = true) (c : PrintContext) :
    pieces (.mk n) c = pieces object c ++ linkPieces n c := by
  have hlink : object.node.isLink = true := Node.isLink_of_opens ((isOpenChain_iff _).1 hopen)
  obtain ⟨hnumber, hchain, hin, hlevel⟩ : object.node.isNumber = false ∧ object.node.isChain = false ∧
      object.node.isBareIn = false ∧ object.level = Level.call := by
    rw [level]
    generalize object.node = l at hlink
    cases l <;> first | exact ⟨rfl, rfl, rfl, rfl⟩ | cases hlink
  have hcallee : asChainObject object (pieces object) c = pieces object c := by
    simp [asChainObject, asOperand, hchain, hin, hlevel]
  have hobject : asMemberObject object (pieces object) c = pieces object c := by
    simp [asMemberObject, hnumber, hcallee]
  cases n with
  | memberExpression =>
    obtain rfl := List.mem_singleton.1 ho
    rw [pieces_member, hobject]
  | callExpression =>
    obtain rfl := List.mem_singleton.1 ho
    rw [pieces_call, hcallee]
  | _ => cases ho

end Tree

/-! ## Runs -/

namespace Store
variable {s : Store} {K : Set NodeId} {x : NodeId}

/-- In a forest, the tree below a node is an open chain if one ends at the node. -/
theorem isOpenChain_tree (hF : Forest s.children K) (hin : ∀ x ∈ K, x.index < s.size) (hx : x ∈ K) :
    (s.tree x).isOpenChain = true ↔ s.Open x := by
  induction hF.acc x hx with
  | intro x _ ih =>
    rw [Tree.isOpenChain_iff, node_tree hF hin hx, Node.opens_map, open_iff]
    exact Node.opens_congr fun c hc => ih c hc (hF.closed x hx c hc)

/-- From an open chain below a node that ends none, the way up leads to where the chain is closed off. -/
theorem Sealed.exists_end (h : s.Sealed) {r : NodeId} (hr : ¬ s.Open r) (hx : Below s.children r x) (ho : s.Open x) :
    ∃ y c, Below s.children r y ∧ s.get y = .chainExpression c ∧ Below s.spine c x := by
  induction hx with
  | refl => exact absurd ho hr
  | @tail p x hp hc ih =>
    rcases Node.mem_children_iff.1 hc with hc | hc | hc
    · obtain ⟨y, c, hy, hn, hb⟩ := ih (open_iff.2 (.inr ⟨x, hc, ho⟩))
      exact ⟨y, c, hy, hn, hb.tail hc⟩
    · refine ⟨p, x, hp, ?_, .refl x⟩
      cases hn : s.get p with
      | chainExpression e =>
        rw [hn] at hc
        rw [List.mem_singleton.1 hc]
      | _ =>
        rw [hn] at hc
        cases hc
    · exact absurd ho ((h.closes p).free x hc)

/-- What holds of the optional chains at a node that the root reaches. -/
structure ChainsEnd (s : Store) (x : NodeId) : Prop where
  /-- An optional link is part of a chain that a node the root reaches closes off. -/
  optional : (s.get x).isOptional = true → ∃ y c, Below s.children s.root y ∧ s.get y = .chainExpression c ∧ Below s.spine c x
  /-- The end of a chain holds a link, and the chain an optional one. -/
  chain : ∀ c, s.get x = .chainExpression c → (s.get c).isLink = true ∧ ∃ y, Below s.spine c y ∧ (s.get y).isOptional = true
  /-- No other node but a link or the end of a chain holds an open one. -/
  free : ∀ c ∈ (s.get x).free, ¬ s.Open c
  /-- A chain that has ended is printed in parentheses where another one goes on from it. -/
  ended : ∀ c ∈ s.spine x, (s.get c).isChain = true → ∀ context, (s.tree x).pieces context =
    Tree.parenthesized (s.tree c).pieces context ++ Tree.linkPieces (s.tree x).node context
  /-- An open chain is printed without them where it goes on. -/
  goesOn : ∀ c ∈ s.spine x, s.Open c → ∀ context, (s.tree x).pieces context =
    (s.tree c).pieces context ++ Tree.linkPieces (s.tree x).node context

theorem Sealed.chainsEnd (h : s.Sealed) (hroot : ¬ s.Open s.root) (hF : Forest s.children K) (hin : ∀ x ∈ K, x.index < s.size)
    (hK : s.root ∈ K) (hx : Below s.children s.root x) : s.ChainsEnd x := by
  have hxK : x ∈ K := hF.below_mem hK hx
  have known {c : NodeId} (hc : c ∈ s.spine x) : c ∈ K := hF.closed x hxK c (mem_children_of_spine hc)
  have htree : s.tree x = .mk (s.tree x).node := by rw [node_tree hF hin hxK, tree_eq hF hin hxK]
  have hspine {c : NodeId} (hc : c ∈ s.spine x) : s.tree c ∈ (s.tree x).node.spine := by
    rw [node_tree hF hin hxK, Node.spine_map]
    exact List.mem_map_of_mem hc
  refine ⟨fun ho => h.exists_end hroot hx (open_iff.2 (.inl ho)), fun c hc => ?_, (h.closes x).free,
    fun c hc hchain context => ?_, fun c hc ho context => ?_⟩
  · have ho : s.Open c := (h.closes x).chained c (by rw [hc]; exact List.mem_singleton_self c)
    exact ⟨Node.isLink_of_opens (open_iff.1 ho), ho⟩
  · have hc' : (s.tree c).node.isChain = true := by
      rw [node_tree hF hin (known hc)]
      cases hn : s.get c <;> first | rfl | simp [hn, Node.isChain] at hchain
    rw [htree]
    exact Tree.pieces_of_ended (hspine hc) hc' context
  · rw [htree]
    exact Tree.pieces_of_open (hspine hc) ((isOpenChain_tree hF hin (known hc)).2 ho) context

end Store

namespace Editing

theorem run_sealed {text : String} {t : Tree} (ht : Source.readProgram text = .ok t) {moves : List Move}
    (hmoves : ∀ m ∈ moves, m.IsReal) {s : Store} (hs : ((start t).run moves).editor.store = s) : s.Sealed ∧ s.Shut s.root := by
  subst hs
  apply run_keeps (P := fun s => s.Sealed ∧ s.Shut s.root)
  · -- the store of a tree has another root, but the same nodes
    have hfills := Source.readProgram_fills ht
    have hsealed := (Store.Seals.insert .empty hfills.sealed).sealed
    have hshut := Store.shut_insert (s := .empty) hfills.closed
    exact ⟨⟨hsealed.inside, hsealed.closes⟩, ⟨hshut.inside, hshut.closed⟩⟩
  · intro e e' K _ he ⟨h, hroot⟩
    have hseals := he.seals h
    exact ⟨hseals.sealed, hseals.root ▸ hseals.shut hroot⟩
  · intro e K trees _ hm ⟨h, hroot⟩
    have hseals : e.store.Seals (e.store.insertAll trees).2 := by
      refine .insertAll h fun u hu => ?_
      obtain ⟨code, hcode⟩ := hmoves (.scrap trees) hm u hu
      exact (Source.readExpression_fills hcode).sealed
    exact ⟨hseals.sealed, hseals.root ▸ hseals.shut hroot⟩

/-- From a text that can be read on, after whatever moves, optional chains end where they ended, in all that the root reaches. -/
theorem run_chainsEnd {text : String} {t : Tree} (ht : Source.readProgram text = .ok t) (moves : List Move)
    (hmoves : ∀ m ∈ moves, m.IsReal) {s : Store} (hs : ((start t).run moves).editor.store = s) {x : NodeId}
    (hx : Below s.children s.root x) : s.ChainsEnd x := by
  obtain ⟨hsealed, hroot⟩ := run_sealed ht hmoves hs
  subst hs
  obtain ⟨K, -, hk⟩ := run_known (start_known t) moves
  exact hsealed.chainsEnd hroot.closed hk.sound.forest hk.sound.inside hk.sound.root hx

/-- What a chain goes on from is set to another chain. The optional access that follows is still closed off in the brackets. -/
theorem chain_in_chain_end : ∃ t, Source.readProgram "y = (a?.b).c[(1)?.d];" = .ok t ∧
    let e := ((start t).run [.find (.literal (.int 1)), .visit, .change .set (.code "u?.v.w")]).editor
    e.print = "y = (a?.b).c[(u?.v.w)?.d];" ∧ (e.store.get ⟨9⟩).isOptional = true ∧ e.store.ChainsEnd ⟨9⟩ := by
  have facts : ((Source.readProgram "y = (a?.b).c[(1)?.d];").toOption.any fun t =>
      let e := ((start t).run [.find (.literal (.int 1)), .visit, .change .set (.code "u?.v.w")]).editor
      e.print = "y = (a?.b).c[(u?.v.w)?.d];" ∧ (e.store.get ⟨9⟩).isOptional = true ∧ ⟨13⟩ ∈ e.store.children e.store.root ∧
      ⟨12⟩ ∈ e.store.children ⟨13⟩ ∧ ⟨11⟩ ∈ e.store.children ⟨12⟩ ∧ ⟨10⟩ ∈ e.store.children ⟨11⟩ ∧
      ⟨9⟩ ∈ e.store.children ⟨10⟩) = true := by
    decide +kernel
  cases hr : Source.readProgram "y = (a?.b).c[(1)?.d];" with
  | error => simp [hr, Except.toOption] at facts
  | ok t =>
    simp only [hr, Except.toOption, Option.any_some] at facts
    obtain ⟨hprint, hoptional, h₁₃, h₁₂, h₁₁, h₁₀, h₉⟩ := of_decide_eq_true facts
    refine ⟨t, rfl, hprint, hoptional, run_chainsEnd hr _ ?_ rfl ?_⟩
    · simp [Move.IsReal]
    · exact ((((Below.kid h₁₃).tail h₁₂).tail h₁₁).tail h₁₀).tail h₉

end Editing
end Graft
