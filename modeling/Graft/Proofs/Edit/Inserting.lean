import Graft.Proofs.Edit.Layered
/-!
# Where statements go

An insertion puts the statements of its text into one statement list, between the elements in front of its place and those behind it,
and changes nothing else (`Editor.insert_inserted`). Where the place is, `Editor.Place` says. Before and after a node the place
moves with the node, so repeated insertions come to one: in the order of the texts in front of the node, and in the reverse order
behind it (`Editor.insertEach_inserted`).
-/

namespace Graft

/-- The statements that a text contributes: those inside, if it is a single block. -/
def Source.fragment : List Tree → List Tree
  | [.mk (.blockStatement body)] => body
  | statements => statements

theorem Node.statements?_withStatements {α : Type} {n : Node α} {list : List α} (h : n.statements? = some list) (list' : List α) :
    (n.withStatements list').statements? = some list' := by
  cases n with
  | program | blockStatement | switchCase => rfl
  | _ => cases h

theorem Node.withStatements_withStatements {α : Type} (n : Node α) (list list' : List α) :
    (n.withStatements list).withStatements list' = n.withStatements list' := by
  cases n <;> rfl

theorem Node.withStatements_self {α : Type} {n : Node α} {list : List α} (h : n.statements? = some list) :
    n.withStatements list = n := by
  cases n with
  | program | blockStatement | switchCase =>
    cases h
    rfl
  | _ => cases h

/-- The trees of inserted texts stand where they were put, also when the store has grown further. -/
theorem Store.map_tree_insertAll {s s' : Store} {K : Set NodeId} (ts : List Tree) (hF : Forest s'.children K)
    (hin : ∀ x ∈ K, x.index < s'.size) (hkeeps : Keeps (s.insertAll ts).2 s') (hK : ∀ x ∈ (s.insertAll ts).1, x ∈ K) :
    (s.insertAll ts).1.map s'.tree = ts := by
  induction ts generalizing s' with
  | nil => rfl
  | cons t ts ih =>
    have hnext : Keeps (s.insertAll ts).2 s' := (keeps_insert t _).trans hkeeps
    have hfirst : s'.tree ((s.insertAll ts).2.insert t).1 = t := tree_of_keeps hF hin hkeeps (hK _ List.mem_cons_self)
    exact congrArg₂ List.cons hfirst (ih hF hin hnext fun x hx => hK x (List.mem_cons_of_mem _ hx))

/-- A statement list has no node twice. -/
theorem Sound.nodup_statements {e : Editor} {K : Set NodeId} {owner : NodeId} {list : List NodeId} (h : Sound e K) (hK : owner ∈ K)
    (hl : (e.store.get owner).statements? = some list) : list.Nodup := by
  obtain ⟨others, hkids, -⟩ := Node.children_withStatements hl list
  have hn := h.forest.nodup owner hK
  rw [Store.children, hkids] at hn
  exact hn.of_append_right

/-- What was there is not above what holds it, also when there are new nodes. -/
theorem Sound.not_below_kid {e : Editor} {K : Set NodeId} {s : Store} {held : List NodeId} (h : Sound e K)
    (hs : Store.Extends e.store s held) {p x : NodeId} (hp : p ∈ K) (hx : x ∈ e.store.children p) : ¬ Below s.children x p := by
  intro hb
  refine h.forest.not_below_kid hp hx (hb.of_agree fun y hy => ?_)
  exact hs.children (Store.Closed.below h.arena (h.arena p x hx) hy)

/-- How much of what an insertion has put in lies in front of the place of the next one at the same position. -/
def InsertPosition.behind (position : InsertPosition) (length : Nat) : Nat :=
  match position with
  | .before | .end => length
  | .start | .after => 0

/-- The order in which texts come to stand that are inserted at the same position one after the other. -/
def InsertPosition.ordered {α : Type} (position : InsertPosition) (texts : List α) : List α :=
  match position with
  | .before | .end => texts
  | .start | .after => texts.reverse

theorem InsertPosition.behind_le (position : InsertPosition) (length : Nat) : position.behind length ≤ length := by
  cases position with
  | before | «end» => exact Nat.le_refl length
  | start | after => exact Nat.zero_le length

namespace Editor

/-- The owner of the statement list at whose start and end things are inserted: the cursor's node itself, or the block of the
function there. -/
inductive Owns (e : Editor) : NodeId → Prop
  | program {body : List NodeId} (h : e.node = .program body) : Owns e e.current
  | block {body : List NodeId} (h : e.node = .blockStatement body) : Owns e e.current
  | function {f : Func NodeId} (h : e.node.func? = some f) (hb : (e.store.get f.body).isBlock = true) : Owns e f.body

/-- Where a position lies: in whose list, behind how many of its elements. -/
inductive Place (e : Editor) (owner : NodeId) (list : List NodeId) : InsertPosition → Nat → Prop
  | start (h : e.Owns owner) : Place e owner list .start 0
  | «end» (h : e.Owns owner) : Place e owner list .end list.length
  | before {i : Nat} (h : e.parent? = some owner) (hi : list[i]? = some e.current)
    (unique : ∀ j, list[j]? = some e.current → j = i) : Place e owner list .before i
  | after {i : Nat} (h : e.parent? = some owner) (hi : list[i]? = some e.current)
    (unique : ∀ j, list[j]? = some e.current → j = i) : Place e owner list .after (i + 1)

/-- `e'` is `e` with new nodes in one statement list, and nothing else has changed. -/
structure Inserted (e e' : Editor) (owner : NodeId) (list : List NodeId) (index : Nat) (new : List NodeId) : Prop where
  held : (e.store.get owner).statements? = some list
  spliced : e'.store.get owner = (e.store.get owner).withStatements (list.take index ++ new ++ list.drop index)
  size : e.store.size ≤ e'.store.size
  others : ∀ x : NodeId, x.index < e.store.size → x ≠ owner → e'.store.get x = e.store.get x
  fresh : ∀ x ∈ new, e.store.size ≤ x.index
  kept : ∀ x ∈ list, e'.store.tree x = e.store.tree x
  links : ∀ x, e'.parents.get? x = if x ∈ new then some owner else e.parents.get? x
  root : e'.store.root = e.store.root
  current : e'.current = e.current

variable {e e' e'' : Editor} {K K' : Set NodeId} {position : InsertPosition} {owner : NodeId} {list new more : List NodeId}
  {index : Nat} {code : String} {body : List Tree}

/-! ## Places -/

theorem placeInParent_eq : e.placeInParent = .ok (owner, index) ↔ e.parent? = some owner ∧
    ∃ list, (e.store.get owner).statements? = some list ∧ list.idxOf? e.current = some index := by
  unfold placeInParent
  cases e.parent? with
  | none => simp [obstacle]
  | some parent =>
    dsimp only
    rw [Option.some.injEq]
    cases hs : (e.store.get parent).statements? with
    | none =>
      refine iff_of_false (by simp [obstacle]) ?_
      rintro ⟨rfl, list, hl, -⟩
      cases hs.symm.trans hl
    | some list =>
      dsimp only
      constructor
      · intro h
        split at h
        next i hi =>
          cases h
          exact ⟨rfl, list, hs, hi⟩
        next => simp [obstacle] at h
      · rintro ⟨rfl, list', hl, hi⟩
        cases hs.symm.trans hl
        rw [hi]

theorem ownList_eq : e.ownList = .ok owner ↔ e.Owns owner := by
  unfold ownList
  constructor
  · intro h
    split at h
    next hn =>
      cases h
      exact .program hn
    next hn =>
      cases h
      exact .block hn
    next =>
      split at h
      next f hf =>
        split at h
        next hb =>
          cases h
          exact .function hf hb
        next => simp [obstacle] at h
      next => simp [obstacle] at h
  · intro h
    cases h with
    | program hn => rw [hn]
    | block hn => rw [hn]
    | function hf hb =>
      cases hn : e.node with
      | functionDeclaration | functionExpression | arrowFunctionExpression =>
        rw [hn, Node.func?] at hf
        cases hf
        exact if_pos hb
      | _ =>
        rw [hn] at hf
        cases hf

theorem eq_of_getElem? {a : NodeId} {i j : Nat} (hn : list.Nodup) (hi : list[i]? = some a) (hj : list[j]? = some a) : j = i :=
  (List.getElem?_inj (List.getElem?_eq_some_iff.1 hj).1 hn).1 (hj.trans hi.symm)

theorem idxOf?_eq_iff {a : NodeId} {i : Nat} (hn : list.Nodup) :
    list.idxOf? a = some i ↔ list[i]? = some a ∧ ∀ j, list[j]? = some a → j = i := by
  constructor
  · intro h
    obtain ⟨hlt, ha, -⟩ := List.idxOf?_eq_some_iff.1 h
    have hi : list[i]? = some a := List.getElem?_eq_some_iff.2 ⟨hlt, ha⟩
    exact ⟨hi, fun j => eq_of_getElem? hn hi⟩
  · rintro ⟨hi, hunique⟩
    have hmem : a ∈ list := List.mem_of_getElem? hi
    obtain ⟨j, hj⟩ := Option.isSome_iff_exists.1 (List.isSome_idxOf?.2 hmem)
    obtain ⟨hlt, ha, -⟩ := List.idxOf?_eq_some_iff.1 hj
    rw [hj, hunique j (List.getElem?_eq_some_iff.2 ⟨hlt, ha⟩)]

/-- An insertion finds the place of its position, in a list that some node owns. -/
theorem insertionPoint_eq (h : Sound e K) : e.insertionPoint position = .ok (owner, index) ↔
    ∃ list, (e.store.get owner).statements? = some list ∧ e.Place owner list position index := by
  have own : e.ownList = .ok owner ↔ e.Owns owner ∧ ∃ list, (e.store.get owner).statements? = some list := by
    rw [ownList_eq]
    exact ⟨fun ho => ⟨ho, ownList_statements (ownList_eq.2 ho)⟩, And.left⟩
  have beside (i : Nat) : e.placeInParent = .ok (owner, i) ↔ ∃ list, (e.store.get owner).statements? = some list ∧
      e.parent? = some owner ∧ list[i]? = some e.current ∧ ∀ j, list[j]? = some e.current → j = i := by
    rw [placeInParent_eq]
    constructor
    · rintro ⟨hp, list, hl, hi⟩
      exact ⟨list, hl, hp, (idxOf?_eq_iff (h.nodup_statements (h.links _ _ hp).2 hl)).1 hi⟩
    · rintro ⟨list, hl, hp, hi⟩
      exact ⟨hp, list, hl, (idxOf?_eq_iff (h.nodup_statements (h.links _ _ hp).2 hl)).2 hi⟩
  have mapped {α β : Type} (r : Except EditError α) (f : α → β) (b : β) : r.map f = .ok b ↔ ∃ a, r = .ok a ∧ f a = b := by
    cases r with
    | error => exact iff_of_false nofun fun ⟨_, ha, _⟩ => nomatch ha
    | ok a => exact ⟨fun hb => ⟨a, rfl, Except.ok.inj hb⟩, fun ⟨_, ha, hb⟩ => congrArg Except.ok (Except.ok.inj ha ▸ hb)⟩
  cases position with
  | start =>
    rw [insertionPoint, mapped]
    constructor
    · rintro ⟨_, ho, ⟨⟩⟩
      obtain ⟨ho, list, hl⟩ := own.1 ho
      exact ⟨list, hl, .start ho⟩
    · rintro ⟨list, hl, hplace⟩
      cases hplace with
      | start ho => exact ⟨owner, own.2 ⟨ho, list, hl⟩, rfl⟩
  | «end» =>
    rw [insertionPoint, mapped]
    constructor
    · rintro ⟨_, ho, ⟨⟩⟩
      obtain ⟨ho, list, hl⟩ := own.1 ho
      refine ⟨list, hl, ?_⟩
      rw [hl]
      exact .end ho
    · rintro ⟨list, hl, hplace⟩
      cases hplace with
      | «end» ho =>
        refine ⟨owner, own.2 ⟨ho, list, hl⟩, ?_⟩
        rw [hl]
        rfl
  | before =>
    rw [insertionPoint, beside]
    constructor
    · rintro ⟨list, hl, hp, hi, hu⟩
      exact ⟨list, hl, .before hp hi hu⟩
    · rintro ⟨list, hl, hplace⟩
      cases hplace with
      | before hp hi hu => exact ⟨list, hl, hp, hi, hu⟩
  | after =>
    rw [insertionPoint, mapped]
    constructor
    · rintro ⟨⟨_, i⟩, ho, ⟨⟩⟩
      obtain ⟨list, hl, hp, hi, hu⟩ := (beside i).1 ho
      exact ⟨list, hl, .after hp hi hu⟩
    · rintro ⟨list, hl, hplace⟩
      cases hplace with
      | after hp hi hu => exact ⟨(owner, _), (beside _).2 ⟨list, hl, hp, hi, hu⟩, rfl⟩

theorem Place.index_le (h : e.Place owner list position index) : index ≤ list.length := by
  cases h with
  | start => exact Nat.zero_le _
  | «end» => exact Nat.le_refl _
  | before _ hi => exact (List.getElem?_eq_some_iff.1 hi).1.le
  | after _ hi => exact (List.getElem?_eq_some_iff.1 hi).1

/-! ## One insertion -/

theorem insertStatements_eq (hread : Source.readStatements code = .ok body) :
    e.insertStatements code = .ok (e.store.insertAll (Source.fragment body)) := by
  unfold insertStatements
  rw [hread]
  cases body with
  | nil => rfl
  | cons t rest =>
    obtain ⟨n⟩ := t
    cases n with
    | blockStatement => cases rest <;> rfl
    | _ => rfl

theorem insertStatements_read {p : List NodeId × Store} (h : e.insertStatements code = .ok p) :
    ∃ body, Source.readStatements code = .ok body := by
  unfold insertStatements at h
  split at h
  next => cases h
  next hread => exact ⟨_, hread⟩
  next hread => exact ⟨_, hread⟩

namespace Inserted

theorem refl (h : (e.store.get owner).statements? = some list) (index : Nat) : Inserted e e owner list index [] := by
  refine ⟨h, ?_, Nat.le_refl _, fun _ _ _ => rfl, nofun, fun _ _ => rfl, fun _ => rfl, rfl, rfl⟩
  rw [List.append_nil, List.take_append_drop, Node.withStatements_self h]

theorem statements (h : Inserted e e' owner list index new) :
    (e'.store.get owner).statements? = some (list.take index ++ new ++ list.drop index) := by
  rw [h.spliced]
  exact Node.statements?_withStatements h.held _

/-- A second insertion among the new elements, or at either end of them. -/
theorem trans {k : Nat} (h : Inserted e e' owner list index new) (hindex : index ≤ list.length) (hk : k ≤ new.length)
    (h' : Inserted e' e'' owner (list.take index ++ new ++ list.drop index) (index + k) more) :
    Inserted e e'' owner list index (new.take k ++ more ++ new.drop k) := by
  have htake : (list.take index ++ new ++ list.drop index).take (index + k) = list.take index ++ new.take k := by
    rw [List.append_assoc, List.take_append, List.length_take_of_le hindex, Nat.add_sub_cancel_left,
      List.take_of_length_le (by grind), List.take_append_of_le_length hk]
  have hdrop : (list.take index ++ new ++ list.drop index).drop (index + k) = new.drop k ++ list.drop index := by
    rw [List.append_assoc, List.drop_append, List.length_take_of_le hindex, Nat.add_sub_cancel_left,
      List.drop_of_length_le (by grind), List.nil_append, List.drop_append_of_le_length hk]
  have hmem (x : NodeId) : x ∈ new.take k ++ more ++ new.drop k ↔ x ∈ more ∨ x ∈ new := by
    conv_rhs => rw [← List.take_append_drop k new]
    simp only [List.mem_append]
    tauto
  refine ⟨h.held, ?_, h.size.trans h'.size, fun x hx hne => ?_, fun x hx => ?_, fun x hx => ?_, fun x => ?_,
    h'.root.trans h.root, h'.current.trans h.current⟩
  · rw [h'.spliced, h.spliced, Node.withStatements_withStatements, htake, hdrop]
    simp only [List.append_assoc]
  · exact (h'.others x (hx.trans_le h.size) hne).trans (h.others x hx hne)
  · rcases (hmem x).1 hx with hx | hx
    · exact h.size.trans (h'.fresh x hx)
    · exact h.fresh x hx
  · have hx' : x ∈ list.take index ++ new ++ list.drop index := by
      rw [← List.take_append_drop index list, List.mem_append] at hx
      simp only [List.mem_append]
      tauto
    exact (h'.kept x hx').trans (h.kept x hx)
  · simp only [h'.links x, h.links x, hmem, ← ite_or]

/-- The trees that two insertions have put in. -/
theorem map_tree_trans {k : Nat} (h' : Inserted e' e'' owner (list.take index ++ new ++ list.drop index) (index + k) more) :
    (new.take k ++ more ++ new.drop k).map e''.store.tree
      = (new.map e'.store.tree).take k ++ more.map e''.store.tree ++ (new.map e'.store.tree).drop k := by
  have hnew : new.map e''.store.tree = new.map e'.store.tree := by
    refine List.map_congr_left fun x hx => h'.kept x ?_
    simp [hx]
  rw [List.map_append, List.map_append, List.map_take, List.map_drop, hnew]

end Inserted

/-- An insertion puts the statements of a text that can be read at its place. -/
theorem insert_inserted (h : Sound e K) (hl : (e.store.get owner).statements? = some list)
    (hplace : e.Place owner list position index) (hread : Source.readStatements code = .ok body) :
    ∃ e' new, e.insert position code = .ok e' ∧ Inserted e e' owner list index new ∧
      new.map e'.store.tree = Source.fragment body := by
  have hpoint : e.insertionPoint position = .ok (owner, index) := (insertionPoint_eq h).2 ⟨list, hl, hplace⟩
  have hK : owner ∈ K := insertionPoint_known h hpoint
  have howner : owner.index < e.store.size := h.inside owner hK
  obtain ⟨new, s, hs⟩ : ∃ new s, e.store.insertAll (Source.fragment body) = (new, s) := ⟨_, _, rfl⟩
  have hinsert := insertStatements_eq (e := e) hread
  rw [hs] at hinsert
  have hp : e.store.Planted s new := insertStatements_planted hinsert
  have hget : s.get owner = e.store.get owner := hp.get owner howner
  have he : e.insert position code = .ok (({ e with store := s } : Editor).splice owner index new) := by
    rw [insert, hpoint]
    change (e.insertStatements code >>= _) = _
    rw [hinsert]
    rfl
  have hsplice : ({ e with store := s } : Editor).splice owner index new = { e with
      store := s.set owner ((e.store.get owner).withStatements (list.take index ++ new ++ list.drop index))
      parents := e.parents.linkAll new owner } := by
    simp only [splice, hget, hl, Option.getD_some]
  -- neither the old elements of the list nor the new ones are above its owner
  have hold (x : NodeId) (hx : x ∈ list) : x ∈ e.store.children owner := by
    obtain ⟨before, hkids, -⟩ := Node.children_withStatements hl list
    rw [Store.children, hkids]
    exact List.mem_append_right before hx
  have hnew (x : NodeId) (hx : x ∈ new) : ¬ Below s.children x owner := by
    intro hb
    exact Nat.not_lt.2 (hp.tops.forest.below_mem (hp.tops.loose x hx).1 hb).1 howner
  rw [hsplice] at he
  refine ⟨_, new, he, ⟨hl, ?_, ?_, fun x hx => ?_, fun x hx => (hp.tops.loose x hx).1.1, fun x hx => ?_, fun x => ?_, hp.root, rfl⟩, ?_⟩
  · exact Store.get_set_self (howner.trans_le hp.size)
  · exact hp.size.trans Store.size_set.ge
  · intro hne
    exact (Store.get_set_of_ne hne).trans (hp.get x hx)
  · have hkid := hold x hx
    exact (Store.tree_set_aside (h.not_below_kid hp.toExtends hK hkid)).trans
      (hp.tree h.arena (h.arena owner x hkid))
  · exact Parents.get?_linkAll _ _ _ _
  · rw [List.map_congr_left fun x hx => Store.tree_set_aside (hnew x hx)]
    have htrees : (e.store.insertAll (Source.fragment body)).1.map s.tree = Source.fragment body :=
      Store.map_tree_insertAll _ hp.tops.forest (fun x hx => hx.2) (by rw [hs]; exact .refl s)
        (by rw [hs]; exact fun x hx => (hp.tops.loose x hx).1)
    rwa [hs] at htrees

/-! ## Runs of insertions -/

/-- Insertions of one text after the other at the same position. -/
def insertEach (position : InsertPosition) (codes : List String) (e : Editor) : Result :=
  codes.foldlM (fun e code => e.insert position code) e

namespace Inserted

/-- Nodes that were there keep their recorded parent. -/
theorem parent?_eq (hi : Inserted e e' owner list index new) (h : Sound e K) : e'.parent? = e.parent? := by
  have hold : e.current ∉ new := fun hmem => Nat.not_lt.2 (hi.fresh e.current hmem) (h.inside e.current h.current)
  rw [parent?, hi.current, hi.links, if_neg hold, parent?]

/-- The cursor's own list stays its own. -/
theorem owns (hi : Inserted e e' owner list index new) (h : Sound e K) (ho : e.Owns owner) : e'.Owns owner := by
  have hcurrent := hi.current
  cases ho with
  | program hn =>
    have hnode : e'.node = .program (list.take index ++ new ++ list.drop index) := by
      rw [node, hcurrent, hi.spliced, ← node, hn]
      rfl
    rw [← hcurrent]
    exact .program hnode
  | block hn =>
    have hnode : e'.node = .blockStatement (list.take index ++ new ++ list.drop index) := by
      rw [node, hcurrent, hi.spliced, ← node, hn]
      rfl
    rw [← hcurrent]
    exact .block hnode
  | @function f hf hb =>
    have hkid : f.body ∈ e.store.children e.current := by
      rw [Store.children, ← node, Node.children_of_func hf]
      simp
    have hne : e.current ≠ f.body := by
      intro he
      rw [← he] at hkid
      exact h.forest.not_below_kid h.current hkid (.refl _)
    have hnode : e'.node = e.node := by
      rw [node, hcurrent, hi.others e.current (h.inside _ h.current) hne, node]
    refine .function (hnode ▸ hf) ?_
    obtain ⟨body, hbody⟩ := isBlock_iff.1 hb
    rw [hi.spliced, hbody]
    rfl

/-- In front of a node and at the end of a list the place comes to lie behind what was inserted; behind a node and at the start it
stays where it is. -/
theorem place (hi : Inserted e e' owner list index new) (h : Sound e K) (hs : Sound e' K') (hK : owner ∈ K')
    (hplace : e.Place owner list position index) :
    e'.Place owner (list.take index ++ new ++ list.drop index) position (index + position.behind new.length) := by
  have hlen : (list.take index ++ new).length = index + new.length := by
    rw [List.length_append, List.length_take_of_le hplace.index_le]
  have there {i : Nat} (hmoved : (list.take index ++ new ++ list.drop index)[i]? = some e'.current) (j : Nat) :=
    eq_of_getElem? (j := j) (hs.nodup_statements hK hi.statements) hmoved
  cases hplace with
  | start ho => exact .start (hi.owns h ho)
  | «end» ho =>
    rw [List.drop_length, List.append_nil, InsertPosition.behind, ← hlen]
    exact .end (hi.owns h ho)
  | before hp hcurrent =>
    have hmoved : (list.take index ++ new ++ list.drop index)[index + new.length]? = some e'.current := by
      rw [List.getElem?_append_right hlen.le, hlen, Nat.sub_self, List.getElem?_drop, Nat.add_zero, hi.current, hcurrent]
    exact .before ((hi.parent?_eq h).trans hp) hmoved (there hmoved)
  | @after i hp hcurrent =>
    have hlt : i < (list.take (i + 1)).length := by
      rw [List.length_take_of_le (List.getElem?_eq_some_iff.1 hcurrent).1]
      exact Nat.lt_succ_self i
    have hstays : (list.take (i + 1) ++ new ++ list.drop (i + 1))[i]? = some e'.current := by
      rw [List.append_assoc, List.getElem?_append_left hlt, List.getElem?_take_of_lt (Nat.lt_succ_self i), hi.current, hcurrent]
    exact .after ((hi.parent?_eq h).trans hp) hstays (there hstays)

end Inserted

/-- Insertions at one place come to a single one, of all the texts in the order that the position gives them. -/
theorem insertEach_inserted {codes : List String} {bodies : List (List Tree)} (h : Sound e K)
    (hl : (e.store.get owner).statements? = some list) (hplace : e.Place owner list position index)
    (hread : List.Forall₂ (fun code body => Source.readStatements code = .ok body) codes bodies) :
    ∃ e' new, insertEach position codes e = .ok e' ∧ Inserted e e' owner list index new ∧
      new.map e'.store.tree = (position.ordered bodies).flatMap Source.fragment := by
  induction hread generalizing e K list index with
  | nil => exact ⟨e, [], rfl, .refl hl index, by cases position <;> rfl⟩
  | @cons code body codes bodies hcode _ ih =>
    obtain ⟨e₁, new, he₁, hi, htrees⟩ := insert_inserted h hl hplace hcode
    obtain ⟨⟨K₁, hK₁, hs⟩, -⟩ := insert_kept h he₁
    have howner : owner ∈ K₁ := hK₁ (insertionPoint_known h ((insertionPoint_eq h).2 ⟨list, hl, hplace⟩))
    obtain ⟨e', more, he', hi', htrees'⟩ := ih hs hi.statements (hi.place h hs howner hplace)
    refine ⟨e', _, ?_, hi.trans hplace.index_le (position.behind_le _) hi', ?_⟩
    · rw [insertEach, List.foldlM_cons, he₁]
      exact he'
    · have hlength : new.length = (Source.fragment body).length := by rw [← htrees, List.length_map]
      rw [hi'.map_tree_trans, htrees, htrees', hlength]
      cases position with
      | before | «end» => simp [InsertPosition.behind, InsertPosition.ordered]
      | start | after => simp [InsertPosition.behind, InsertPosition.ordered]

/-- What has succeeded had a place and a text that can be read. -/
theorem insert_reads (h : Sound e K) (he : e.insert position code = .ok e') : (∃ owner list index,
    (e.store.get owner).statements? = some list ∧ e.Place owner list position index) ∧
      ∃ body, Source.readStatements code = .ok body := by
  obtain ⟨owner, index, _, _, hpoint, hinsert, -⟩ := insert_ok he
  obtain ⟨list, hl, hplace⟩ := (insertionPoint_eq h).1 hpoint
  exact ⟨⟨owner, list, index, hl, hplace⟩, insertStatements_read hinsert⟩

theorem insertEach_cons {codes : List String} (he : insertEach position (code :: codes) e = .ok e') :
    ∃ e₁, e.insert position code = .ok e₁ ∧ insertEach position codes e₁ = .ok e' := by
  rw [insertEach, List.foldlM_cons] at he
  exact bind_eq_ok he

theorem insertEach_reads {codes : List String} (h : Sound e K) (he : insertEach position codes e = .ok e') :
    ∃ bodies, List.Forall₂ (fun code body => Source.readStatements code = .ok body) codes bodies := by
  induction codes generalizing e K with
  | nil => exact ⟨[], .nil⟩
  | cons code codes ih =>
    obtain ⟨e₁, he₁, he⟩ := insertEach_cons he
    obtain ⟨⟨K₁, -, hs⟩, -⟩ := insert_kept h he₁
    obtain ⟨-, body, hbody⟩ := insert_reads h he₁
    obtain ⟨bodies, hbodies⟩ := ih hs he
    exact ⟨body :: bodies, .cons hbody hbodies⟩

/-- What an insertion that has succeeded has done. -/
theorem inserted_of_insert (h : Sound e K) (he : e.insert position code = .ok e') : ∃ body owner list index new,
    Source.readStatements code = .ok body ∧ e.Place owner list position index ∧ Inserted e e' owner list index new ∧
      new.map e'.store.tree = Source.fragment body := by
  obtain ⟨⟨owner, list, index, hl, hplace⟩, body, hbody⟩ := insert_reads h he
  obtain ⟨e'', new, he'', hi, htrees⟩ := insert_inserted h hl hplace hbody
  obtain rfl : e'' = e' := Except.ok.inj (he''.symm.trans he)
  exact ⟨body, owner, list, index, new, hbody, hplace, hi, htrees⟩

/-- What a series of insertions that has succeeded has done. -/
theorem inserted_of_insertEach {codes : List String} (h : Sound e K) (hne : codes ≠ [])
    (he : insertEach position codes e = .ok e') : ∃ bodies owner list index new,
      List.Forall₂ (fun code body => Source.readStatements code = .ok body) codes bodies ∧ e.Place owner list position index ∧
      Inserted e e' owner list index new ∧ new.map e'.store.tree = (position.ordered bodies).flatMap Source.fragment := by
  obtain ⟨bodies, hbodies⟩ := insertEach_reads h he
  obtain ⟨owner, list, index, hl, hplace⟩ : ∃ owner list index,
      (e.store.get owner).statements? = some list ∧ e.Place owner list position index := by
    cases codes with
    | nil => cases hne rfl
    | cons code codes =>
      obtain ⟨e₁, he₁, -⟩ := insertEach_cons he
      exact (insert_reads h he₁).1
  obtain ⟨e'', new, he'', hi, htrees⟩ := insertEach_inserted h hl hplace hbodies
  obtain rfl : e'' = e' := Except.ok.inj (he''.symm.trans he)
  exact ⟨bodies, owner, list, index, new, hbodies, hplace, hi, htrees⟩

end Editor

namespace Editing

/-- In whatever state an editor is left on a tree, with the cursor on whatever node: an insertion that succeeds puts the statements
of its text at its place and changes nothing else, and so does a series of insertions at the same position, with the texts in their
order in front of a node or at an end, and in the reverse order behind a node or at a start. -/
theorem run_insert_splices (t : Tree) (moves : List Move) {e : Editor} (he : ((start t).run moves).editor = e) {x : NodeId}
    (hx : Below e.store.children e.store.root x ∨ Below e.store.children e.current x) (position : InsertPosition) :
    (∀ code e', (e.moveTo x).insert position code = .ok e' → ∃ body owner list index new,
      Source.readStatements code = .ok body ∧ (e.moveTo x).Place owner list position index ∧
      Editor.Inserted (e.moveTo x) e' owner list index new ∧ new.map e'.store.tree = Source.fragment body) ∧
    (∀ codes e', codes ≠ [] → Editor.insertEach position codes (e.moveTo x) = .ok e' → ∃ bodies owner list index new,
      List.Forall₂ (fun code body => Source.readStatements code = .ok body) codes bodies ∧
      (e.moveTo x).Place owner list position index ∧ Editor.Inserted (e.moveTo x) e' owner list index new ∧
      new.map e'.store.tree = (position.ordered bodies).flatMap Source.fragment) := by
  subst he
  obtain ⟨K, hs⟩ := run_sound_at t moves hx
  exact ⟨fun _ _ => Editor.inserted_of_insert hs, fun _ _ => Editor.inserted_of_insertEach hs⟩

/-- Two statements, and three texts for the start of the program: a statement, a block and two statements. -/
theorem two_statements_spliced : ∃ t, Source.readProgram "a; b;" = .ok t ∧
    let e := ((start t).run []).editor
    ∃ e', Editor.insertEach .start ["c;", "\x7b d; e; \x7d", "f; g;"] (e.moveTo e.current) = .ok e' ∧
      e'.print = "f;\ng;\nd;\ne;\nc;\na;\nb;" ∧ ∃ bodies owner list index new,
      List.Forall₂ (fun code body => Source.readStatements code = .ok body) ["c;", "\x7b d; e; \x7d", "f; g;"] bodies ∧
      (e.moveTo e.current).Place owner list .start index ∧ Editor.Inserted (e.moveTo e.current) e' owner list index new ∧
      new.map e'.store.tree = bodies.reverse.flatMap Source.fragment := by
  have facts : (Source.readProgram "a; b;").toOption.any (fun t =>
      (Editor.insertEach .start ["c;", "\x7b d; e; \x7d", "f; g;"] ((start t).run []).editor).toOption.any fun e' =>
        e'.print = "f;\ng;\nd;\ne;\nc;\na;\nb;") = true := by decide +kernel
  cases hr : Source.readProgram "a; b;" with
  | error => simp [hr, Except.toOption] at facts
  | ok t =>
    simp only [hr, Except.toOption, Option.any_some] at facts
    cases he : Editor.insertEach .start ["c;", "\x7b d; e; \x7d", "f; g;"] ((start t).run []).editor with
    | error => simp [he] at facts
    | ok e' =>
      simp only [he, Option.any_some] at facts
      refine ⟨t, rfl, e', he, of_decide_eq_true facts, ?_⟩
      exact (run_insert_splices t [] rfl (.inr (.refl _)) .start).2 _ e' (List.cons_ne_nil _ _) he

end Editing
end Graft
