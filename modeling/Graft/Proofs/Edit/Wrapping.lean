import Graft.Proofs.Edit.Layered
/-!
# What a wrap makes of a function

A wrap moves what a function holds into a new function inside it, in front of the wrapper's statements: as trees, `Func.wrapped`.
`Editor.Laid` says where each node goes, and from it `Editor.Rewrapped` follows: the tree that is left, that no node is lost or held
twice, and that no other node is touched. Code wraps a function exactly if it is an arrow function of the right arity
(`Source.Wraps`); as a wrap leaves the arity, wraps follow each other freely (`Editor.wrapEach_iff`).
-/

namespace Graft

variable {s s' : Store} {K : Set NodeId} {w body x y : NodeId} {list held : List NodeId} {n : Node NodeId} {e e' : Editor}

/-! ## Functions of trees -/

/-- Replaces every child. -/
def Func.map {α β : Type} (g : α → β) (f : Func α) : Func β := { f with id := f.id.map g, params := f.params.map g, body := g f.body }

namespace Node

variable {α β : Type} (g : α → β)

theorem traverseFunc_pure (f : Func α) : traverseFunc (fun a => (pure (g a) : Id β)) f = pure (f.map g) := by
  have hid := traverseOption_pure (fun a => (rfl : (pure (g a) : Id β) = _)) f.id
  have hparams := traverseList_pure (fun a => (rfl : (pure (g a) : Id β) = _)) f.params
  rw [traverseFunc, hid, hparams]
  rfl

theorem func?_map (n : Node α) : (n.map g).func? = n.func?.map (Func.map g) := by
  cases n with
  | functionDeclaration f => exact congrArg (fun f => Option.some (Id.run f)) (traverseFunc_pure g f)
  | functionExpression f => exact congrArg (fun f => Option.some (Id.run f)) (traverseFunc_pure g f)
  | arrowFunctionExpression f => exact congrArg (fun f => Option.some (Id.run f)) (traverseFunc_pure g f)
  | _ => rfl

theorem map_arrowFunctionExpression (f : Func α) : (arrowFunctionExpression f).map g = .arrowFunctionExpression (f.map g) :=
  congrArg arrowFunctionExpression (traverseFunc_pure g f)

theorem map_functionDeclaration (f : Func α) : (functionDeclaration f).map g = .functionDeclaration (f.map g) :=
  congrArg functionDeclaration (traverseFunc_pure g f)

theorem map_blockStatement (body : List α) : (blockStatement body).map g = .blockStatement (body.map g) :=
  congrArg blockStatement (traverseList_pure (m := Id) (fun _ => rfl) body)

theorem map_withFunc {n : Node α} {f : Func α} (h : n.func? = some f) (f' : Func α) :
    (n.withFunc f').map g = (n.map g).withFunc (f'.map g) := by
  cases n with
  | functionDeclaration => exact map_functionDeclaration g f'
  | functionExpression => exact congrArg functionExpression (traverseFunc_pure g f')
  | arrowFunctionExpression => exact map_arrowFunctionExpression g f'
  | _ => cases h

theorem withFunc_map (g' : α → β) {n : Node α} {f : Func α} (h : n.func? = some f) (f' : Func β) :
    (n.map g).withFunc f' = (n.map g').withFunc f' := by
  cases n with
  | functionDeclaration | functionExpression | arrowFunctionExpression => rfl
  | _ => cases h

theorem func?_withFunc {n : Node α} {f : Func α} (h : n.func? = some f) (f' : Func α) : (n.withFunc f').func? = some f' := by
  cases n with
  | functionDeclaration | functionExpression | arrowFunctionExpression => rfl
  | _ => cases h

theorem identifierName?_map (n : Node α) : (n.map g).identifierName? = n.identifierName? := by
  cases n <;> rfl

theorem identifierName?_iff {n : Node α} {name : String} : n.identifierName? = some name ↔ n = .identifier name := by
  cases n <;> simp [identifierName?]

theorem isBlock_map (n : Node α) : (n.map g).isBlock = n.isBlock := by
  cases n <;> rfl

end Node

namespace Tree

/-- The statements that a function body stands for: those of a block, or a `return` of an expression. -/
def bodyStatements : Tree → List Tree
  | .mk (.blockStatement statements) => statements
  | body => [.mk (.returnStatement (some body))]

theorem bodyStatements_of_expression {t : Tree} (h : t.node.isBlock = false) :
    t.bodyStatements = [.mk (.returnStatement (some t))] := by
  obtain ⟨n⟩ := t
  cases n with
  | blockStatement => cases h
  | _ => rfl

end Tree

/-- The function that a wrap leaves: it has the wrapper's further parameters, and in front of the wrapper's statements a function
that has what it had itself. -/
def Func.wrapped (f wrapper : Func Tree) (name : String) : Func Tree :=
  let inner := { f with id := some (.mk (.identifier name)), body := .mk (.blockStatement f.body.bodyStatements) }
  { f with
    params := wrapper.params.tail
    body := .mk (.blockStatement (.mk (.functionDeclaration inner) :: wrapper.body.bodyStatements))
    isAsync := f.isAsync || wrapper.isAsync }

/-- Code that wraps functions of so many parameters: an arrow function with one more, the first of which is a plain name. -/
structure Source.Wraps (code : String) (arity : Nat) (wrapper : Func Tree) (name : String) : Prop where
  reads : Source.readExpression code = .ok (.mk (.arrowFunctionExpression wrapper))
  arity : wrapper.params.length = arity + 1
  first : wrapper.params.head? = some (.mk (.identifier name))

/-! ## Bodies -/

namespace Store

theorem lt_of_get (h : s.get x = n) (hn : n ≠ .emptyStatement) : x.index < s.size := by
  by_contra hge
  exact hn (h.symm.trans (get_of_size_le (Nat.le_of_not_lt hge)))

/-- A node that is no function is not one that is. -/
theorem ne_of_get {f : Func NodeId} (hw : (s.get w).func? = some f) (h : s.get x = n) (hn : n.func? = none) : x ≠ w := by
  rintro rfl
  rw [h, hn] at hw
  cases hw

/-- The tree below a node depends on the nodes below it. -/
theorem tree_of_below {K' : Set NodeId} (hF : Forest s.children K) (hin : ∀ x ∈ K, x.index < s.size) (hx : x ∈ K)
    (hF' : Forest s'.children K') (hin' : ∀ x ∈ K', x.index < s'.size) (hx' : x ∈ K')
    (hsame : ∀ y, Below s.children x y → s'.get y = s.get y) : s'.tree x = s.tree x := by
  induction hF.acc x hx with
  | intro x _ ih =>
    have hget : s'.get x = s.get x := hsame x (.refl x)
    have hkids (c : NodeId) (hc : c ∈ (s.get x).children) : s'.tree c = s.tree c := by
      have hc' : c ∈ s'.children x := by rwa [Store.children, hget]
      exact ih c hc (hF.closed x hx c hc) (hF'.closed x hx' c hc') fun y hy => hsame y ((Below.kid hc).trans hy)
    rw [tree_eq hF hin hx, tree_eq hF' hin' hx', hget, Node.map_congr hkids]

/-- The statements that a body stands for, the `return` of an expression in a slot of its own. -/
inductive BodyIs (s : Store) (body : NodeId) : List NodeId → Prop
  | block {list : List NodeId} (h : s.get body = .blockStatement list) : BodyIs s body list
  | expression {ret : NodeId} (hb : (s.get body).isBlock = false) (h : s.get ret = .returnStatement (some body)) : BodyIs s body [ret]

namespace BodyIs

theorem grow (h : s.BodyIs body list) (hs : Extends s s' held) (hlt : body.index < s.size) : s'.BodyIs body list := by
  have hbody := hs.get body hlt
  cases h with
  | block h => exact .block (hbody.trans h)
  | @expression ret hb h => exact .expression (hbody ▸ hb) ((hs.get ret (lt_of_get h nofun)).trans h)

/-- A write to a function that is not the body itself. -/
theorem set {f : Func NodeId} (h : s.BodyIs body list) (hw : (s.get w).func? = some f) (hne : body ≠ w) :
    (s.set w n).BodyIs body list := by
  have hbody : (s.set w n).get body = s.get body := get_set_of_ne hne
  cases h with
  | block h => exact .block (hbody.trans h)
  | @expression ret hb h => exact .expression (hbody ▸ hb) ((get_set_of_ne (ne_of_get hw h rfl)).trans h)

/-- The trees of the statements are those that the tree of the body stood for, if the trees below it have not changed. -/
theorem map_tree {K' : Set NodeId} (h : s'.BodyIs body list) (hF : Forest s.children K) (hin : ∀ x ∈ K, x.index < s.size)
    (hb : body ∈ K) (hF' : Forest s'.children K') (hin' : ∀ x ∈ K', x.index < s'.size) (hl : ∀ x ∈ list, x ∈ K')
    (hget : s'.get body = s.get body) (hsame : ∀ x, Below s.children body x → x ∈ K' → s'.tree x = s.tree x) :
    list.map s'.tree = (s.tree body).bodyStatements := by
  have htree := tree_eq hF hin hb
  cases h with
  | block h =>
    have hkids : s.children body = list := by rw [Store.children, ← hget, h, Node.children_blockStatement]
    rw [htree, ← hget, h, Node.map_blockStatement, Tree.bodyStatements]
    exact List.map_congr_left fun x hx => hsame x (.kid (hkids ▸ hx)) (hl x hx)
  | @expression ret hn h =>
    have hret : ret ∈ K' := hl ret (List.mem_singleton_self ret)
    have hbody : body ∈ K' := hF'.closed ret hret body (by simp [Store.children, h])
    have hnot : (s.tree body).node.isBlock = false := by rw [htree, Tree.node, Node.isBlock_map, ← hget, hn]
    rw [List.map_singleton, tree_eq hF' hin' hret, h, Tree.bodyStatements_of_expression hnot, ← hsame body (.refl body) hbody]
    rfl

end BodyIs
end Store

namespace Editor

theorem bodyStatements_is (hlt : body.index < s.size) : (bodyStatements s body).2.BodyIs body (bodyStatements s body).1 := by
  have hold : (s.alloc (.returnStatement (some body))).2.get body = s.get body := Store.get_alloc_of_lt hlt
  unfold bodyStatements
  split
  next statements h => exact .block h
  next h =>
    refine .expression ?_ Store.get_alloc_self
    rw [hold]
    exact Bool.eq_false_iff.2 fun hb => (isBlock_iff.1 hb).elim fun statements hs => h statements hs

theorem blockBody_is (hlt : body.index < s.size) :
    ∃ list, (blockBody s body).2.get (blockBody s body).1 = .blockStatement list ∧ (blockBody s body).2.BodyIs body list := by
  unfold blockBody allocBlock
  split
  next hb =>
    obtain ⟨list, h⟩ := isBlock_iff.1 hb
    exact ⟨list, h, .block h⟩
  next =>
    obtain ⟨held, hext⟩ := bodyStatements_extends s body
    exact ⟨_, Store.get_alloc_self, (bodyStatements_is hlt).grow (.alloc _ _) (hlt.trans_le hext.size)⟩

/-- A new function declaration with what another function holds. -/
structure Nested (s : Store) (original : Func NodeId) (name : String) (inner innerName innerBody : NodeId) (old : List NodeId) :
    Prop where
  function : s.get inner = .functionDeclaration { original with id := some innerName, body := innerBody }
  name : s.get innerName = .identifier name
  block : s.get innerBody = .blockStatement old
  body : s.BodyIs original.body old

theorem Nested.grow {original : Func NodeId} {name : String} {inner innerName innerBody : NodeId} {old : List NodeId}
    (h : Nested s original name inner innerName innerBody old) (hs : Store.Extends s s' held) (hlt : original.body.index < s.size) :
    Nested s' original name inner innerName innerBody old where
  function := (hs.get _ (Store.lt_of_get h.function nofun)).trans h.function
  name := (hs.get _ (Store.lt_of_get h.name nofun)).trans h.name
  block := (hs.get _ (Store.lt_of_get h.block nofun)).trans h.block
  body := h.body.grow hs hlt

theorem allocInner_nested {original : Func NodeId} (name : String) (hlt : original.body.index < s.size) :
    ∃ innerName innerBody old, Nested (allocInner s original name).2 original name (allocInner s original name).1 innerName innerBody
      old := by
  obtain ⟨old, hblock, hbody⟩ := blockBody_is hlt
  obtain ⟨held, hext⟩ := blockBody_extends s original.body
  obtain ⟨innerBody, s₁, hs₁⟩ : ∃ innerBody s₁, blockBody s original.body = (innerBody, s₁) := ⟨_, _, rfl⟩
  rw [hs₁] at hblock hbody hext
  obtain ⟨innerName, s₂, hs₂⟩ : ∃ innerName s₂, s₁.alloc (.identifier name) = (innerName, s₂) := ⟨_, _, rfl⟩
  have hinner : allocInner s original name
      = s₂.alloc (.functionDeclaration { original with id := some innerName, body := innerBody }) := by
    simp only [allocInner, hs₁, hs₂]
  have hext₂ := Store.Extends.alloc s₁ (.identifier name)
  have hname : (s₁.alloc (.identifier name)).2.get (s₁.alloc (.identifier name)).1 = .identifier name := Store.get_alloc_self
  rw [hs₂] at hext₂ hname
  have hext₃ := Store.Extends.alloc s₂ (.functionDeclaration { original with id := some innerName, body := innerBody })
  have hnamed := (hext₃.get _ (Store.lt_of_get hname (by simp))).trans hname
  have hold := hext₂.trans hext₃
  rw [hinner]
  refine ⟨innerName, innerBody, old, Store.get_alloc_self, hnamed, ?_, hbody.grow hold (hlt.trans_le hext.size)⟩
  exact (hold.get _ (Store.lt_of_get hblock (by simp))).trans hblock

theorem allocOuter_is (inner : NodeId) (hlt : body.index < s.size) : ∃ new,
    (allocOuter s inner body).2.get (allocOuter s inner body).1 = .blockStatement (inner :: new) ∧
      (allocOuter s inner body).2.BodyIs body new := by
  obtain ⟨held, hext⟩ := bodyStatements_extends s body
  exact ⟨_, Store.get_alloc_self, (bodyStatements_is hlt).grow (.alloc _ _) (hlt.trans_le hext.size)⟩

/-- Where a wrap puts the nodes of two functions: `target` gets the wrapper's further parameters and a new block, in which a function
that holds what `target` held stands before the wrapper's statements. -/
structure Laid (s s' : Store) (target : NodeId) (original wrapper : Func NodeId) (name : String) (body inner innerName innerBody : NodeId)
    (old new : List NodeId) : Prop where
  function : s'.get target = (s.get target).withFunc { original with
    params := wrapper.params.tail, body := body, isAsync := original.isAsync || wrapper.isAsync }
  block : s'.get body = .blockStatement (inner :: new)
  nested : Nested s' original name inner innerName innerBody old
  statements : s'.BodyIs wrapper.body new
  others : ∀ x : NodeId, x.index < s.size → x ≠ target → s'.get x = s.get x
  fresh : s.size ≤ body.index

theorem wrapFunction_laid {target : NodeId} {original wrapper : Func NodeId} (name : String) (ho : (e.store.get target).func? = some original)
    (hbody : original.body.index < e.store.size) (hne : original.body ≠ target) (hwbody : wrapper.body.index < e.store.size)
    (hwne : wrapper.body ≠ target) : ∃ body inner innerName innerBody old new,
      Laid e.store (e.wrapFunction target original wrapper name).store target original wrapper name body inner innerName innerBody
        old new := by
  have htarget : target.index < e.store.size := Store.lt_of_get rfl fun hn => by simp [hn, Node.func?] at ho
  obtain ⟨innerName, innerBody, old, hnested⟩ := allocInner_nested name hbody
  have hin := allocInner_spec e.store original name
  obtain ⟨inner, s₁, hs₁⟩ : ∃ inner s₁, allocInner e.store original name = (inner, s₁) := ⟨_, _, rfl⟩
  rw [hs₁] at hnested hin
  obtain ⟨held₁, hext₁⟩ := hin.grown
  obtain ⟨new, hblock, hstatements⟩ := allocOuter_is inner (hwbody.trans_le hext₁.size)
  have hout := allocOuter_spec s₁ inner wrapper.body
  obtain ⟨body, s₂, hs₂⟩ : ∃ body s₂, allocOuter s₁ inner wrapper.body = (body, s₂) := ⟨_, _, rfl⟩
  rw [hs₂] at hblock hstatements hout
  obtain ⟨held₂, hext₂⟩ := hout.grown
  have hgrown := hnested.grow hext₂ (hbody.trans_le hext₁.size)
  have hold := hext₁.trans hext₂
  have ho' : (s₂.get target).func? = some original := (hold.get target htarget).symm ▸ ho
  have hine : inner ≠ target := fun he => Nat.not_lt.2 hin.new.1 (he ▸ htarget)
  refine ⟨body, inner, innerName, innerBody, old, new, ?_⟩
  simp only [wrapFunction_eq, hs₁, hs₂]
  refine ⟨?_, ?_, ⟨?_, ?_, ?_, hgrown.body.set ho' hne⟩, hstatements.set ho' hwne, fun x hx hxne => ?_, hext₁.size.trans hout.new.1⟩
  · rw [Store.get_set_self (htarget.trans_le hold.size), hold.get target htarget]
  · exact (Store.get_set_of_ne (Store.ne_of_get ho' hblock rfl)).trans hblock
  · exact (Store.get_set_of_ne hine).trans hgrown.function
  · exact (Store.get_set_of_ne (Store.ne_of_get ho' hgrown.name rfl)).trans hgrown.name
  · exact (Store.get_set_of_ne (Store.ne_of_get ho' hgrown.block rfl)).trans hgrown.block
  · exact (Store.get_set_of_ne hxne).trans (hold.get x hx)

/-! ## When a function is wrapped -/

section Reading
variable {code name : String} {id : NodeId} {original wrapper : Func NodeId} {w : Func Tree} {arity : Nat}

theorem wrap_eq_ok : e.wrap code = .ok e' ↔ ∃ original id s wrapper name, e.node.func? = some original ∧
    e.insertExpression code = .ok (id, s) ∧ s.get id = .arrowFunctionExpression wrapper ∧
      wrapper.params.length = original.params.length + 1 ∧ wrapper.params.head?.bind s.identifierName? = some name ∧
      e' = ({ e with store := s } : Editor).wrapFunction e.current original wrapper name := by
  constructor
  · intro he
    unfold wrap at he
    split at he
    next => simp [obstacle] at he
    next original ho =>
      obtain ⟨⟨id, s⟩, hread, he⟩ := bind_eq_ok he
      dsimp only at he
      split at he
      next wrapper hw =>
        split at he
        next => simp [obstacle] at he
        next hlength =>
          split at he
          next name hname =>
            cases he
            exact ⟨original, id, s, wrapper, name, ho, hread, hw, not_not.1 hlength, hname, rfl⟩
          next => simp [obstacle] at he
      next => simp [obstacle] at he
  · rintro ⟨original, id, s, wrapper, name, ho, hread, hw, hlength, hname, rfl⟩
    rw [wrap, ho]
    simp only [hread, bind, Except.bind, hw]
    rw [if_neg (not_not.2 hlength), hname]

theorem identifierName?_iff (hF : Forest s.children K) (hin : ∀ x ∈ K, x.index < s.size) (hx : x ∈ K) :
    s.identifierName? x = some name ↔ s.tree x = .mk (.identifier name) := by
  rw [Store.tree_eq hF hin hx, Store.identifierName?, ← Node.identifierName?_map s.tree, Node.identifierName?_iff, Tree.mk.injEq]

/-- Code wraps a function exactly if it was read as an arrow function with one parameter more that begins with a plain name. -/
theorem wraps_iff {t : Tree} (hp : e.store.Planted s [id]) (hread : Source.readExpression code = .ok t) (htree : s.tree id = t)
    (hw : s.get id = .arrowFunctionExpression wrapper) : Source.Wraps code arity w name ↔
      wrapper.params.length = arity + 1 ∧ wrapper.params.head?.bind s.identifierName? = some name ∧ w = wrapper.map s.tree := by
  have hin : ∀ x ∈ e.store.added s, x.index < s.size := fun x hx => hx.2
  have hid : id ∈ e.store.added s := (hp.tops.loose id List.mem_cons_self).1
  have ht : t = .mk (.arrowFunctionExpression (wrapper.map s.tree)) := by
    rw [← htree, Store.tree_eq hp.tops.forest hin hid, hw, Node.map_arrowFunctionExpression]
  have hkids : s.children id = wrapper.id.toList ++ wrapper.params ++ [wrapper.body] := by
    rw [Store.children, hw]
    exact Node.children_of_func rfl
  have hfirst : wrapper.params.head?.bind s.identifierName? = some name ↔
      (wrapper.map s.tree).params.head? = some (.mk (.identifier name)) := by
    rw [Func.map, List.head?_map]
    cases hhead : wrapper.params.head? with
    | none => simp
    | some c =>
      have hc : c ∈ e.store.added s := hp.tops.forest.closed id hid c (by simp [hkids, List.mem_of_head? hhead])
      rw [Option.bind_some, Option.map_some, Option.some.injEq, identifierName?_iff hp.tops.forest hin hc]
  constructor
  · rintro ⟨hreads, harity, hname⟩
    rw [hread, ht] at hreads
    cases hreads
    exact ⟨by simpa [Func.map] using harity, hfirst.2 hname, rfl⟩
  · rintro ⟨harity, hname, rfl⟩
    exact ⟨hread.trans (congrArg Except.ok ht), by simpa [Func.map] using harity, hfirst.1 hname⟩

/-- A wrap that succeeds finds a function and code that wraps functions of its arity. -/
theorem wrap_reads (he : e.wrap code = .ok e') : ∃ original w name id s wrapper, e.node.func? = some original ∧
    Source.Wraps code original.params.length w name ∧ e.store.insert (.mk (.arrowFunctionExpression w)) = (id, s) ∧
      s.get id = .arrowFunctionExpression wrapper ∧ w = wrapper.map s.tree ∧
      e' = ({ e with store := s } : Editor).wrapFunction e.current original wrapper name := by
  obtain ⟨original, id, s, wrapper, name, ho, hinsert, hw, harity, hname, rfl⟩ := wrap_eq_ok.1 he
  obtain ⟨t, hread⟩ : ∃ t, Source.readExpression code = .ok t := by
    unfold insertExpression at hinsert
    split at hinsert
    next => cases hinsert
    next t ht => exact ⟨t, ht⟩
  have hstore : e.store.insert t = (id, s) := Except.ok.inj ((insertExpression_eq hread).symm.trans hinsert)
  have htree : s.tree id = t := by
    have h := Store.tree_insert t e.store
    rwa [hstore] at h
  have hwraps := (wraps_iff (insertExpression_planted hinsert) hread htree hw).2 ⟨harity, hname, rfl⟩
  obtain rfl : t = .mk (.arrowFunctionExpression (wrapper.map s.tree)) := Except.ok.inj (hread.symm.trans hwraps.reads)
  exact ⟨original, _, name, id, s, wrapper, ho, hwraps, hstore, hw, rfl, rfl⟩

/-- Such code wraps the function. -/
theorem exists_wrap {original : Func NodeId} (ho : e.node.func? = some original)
    (hw : Source.Wraps code original.params.length w name) : ∃ e', e.wrap code = .ok e' := by
  obtain ⟨id, s, hstore⟩ : ∃ id s, e.store.insert (.mk (.arrowFunctionExpression w)) = (id, s) := ⟨_, _, rfl⟩
  have hinsert : e.insertExpression code = .ok (id, s) := (insertExpression_eq hw.reads).trans (congrArg Except.ok hstore)
  have htree : s.tree id = .mk (.arrowFunctionExpression w) := by
    have h := Store.tree_insert (.mk (.arrowFunctionExpression w)) e.store
    rwa [hstore] at h
  have hp := insertExpression_planted hinsert
  obtain ⟨wrapper, hwrapper⟩ : ∃ wrapper, s.get id = .arrowFunctionExpression wrapper := by
    have hid : id ∈ e.store.added s := (hp.tops.loose id List.mem_cons_self).1
    rw [Store.tree_eq hp.tops.forest (fun x hx => hx.2) hid, Tree.mk.injEq] at htree
    cases hn : s.get id with
    | arrowFunctionExpression wrapper => exact ⟨wrapper, rfl⟩
    | _ =>
      rw [hn] at htree
      cases htree
  obtain ⟨harity, hname, -⟩ := (wraps_iff hp hw.reads htree hwrapper).1 hw
  exact ⟨_, wrap_eq_ok.2 ⟨original, id, s, wrapper, name, ho, hinsert, hwrapper, harity, hname, rfl⟩⟩

end Reading

/-! ## What is wrapped -/

/-- `e'` is `e` with the function `f` at the cursor wrapped by the arrow function `w`, whose first parameter is `name`. -/
structure Rewrapped (e e' : Editor) (f w : Func Tree) (name : String) : Prop where
  was : (e.store.tree e.current).node.func? = some f
  tree : e'.store.tree e.current = .mk ((e.store.tree e.current).node.withFunc (f.wrapped w name))
  others : ∀ x : NodeId, x.index < e.store.size → x ≠ e.current → e'.store.get x = e.store.get x
  fresh : ∀ changed, e'.node.func? = some changed → (e.store.insert (.mk (.arrowFunctionExpression w))).2.size ≤ changed.body.index
  kept : ∀ x, Below e.store.children e.current x → Below e'.store.children e.current x
  taken : ∀ id s wrapper, e.store.insert (.mk (.arrowFunctionExpression w)) = (id, s) → s.get id = .arrowFunctionExpression wrapper →
    ∀ x, Below s.children id x → x = id ∨ x = wrapper.body ∧ (s.get x).isBlock = true ∨ wrapper.params.head? = some x ∨
      Below e'.store.children e.current x
  once : IsTree e'.store.children e.current
  root : e'.store.root = e.store.root
  current : e'.current = e.current

/-- A wrap that is over, `s` being the store with the wrapper as it was read, in slot `id`. -/
structure Over (e e' : Editor) (K K' : Set NodeId) (s : Store) (id : NodeId) (original wrapper : Func NodeId) (name : String)
    (body inner innerName innerBody : NodeId) (old new : List NodeId) : Prop
    extends Laid s e'.store e.current original wrapper name body inner innerName innerBody old new where
  before : Sound e K
  after : Sound e' K'
  known : K ⊆ K'
  original : e.node.func? = some original
  planted : e.store.Planted s [id]
  arrow : s.get id = .arrowFunctionExpression wrapper
  kept : ∀ x, Below e.store.children e.current x → Below e'.store.children e.current x
  root : e'.store.root = e.store.root
  current : e'.current = e.current

namespace Over

variable {K' : Set NodeId} {original wrapper : Func NodeId} {name : String} {id body inner innerName innerBody c : NodeId}
  {old new : List NodeId} (h : Over e e' K K' s id original wrapper name body inner innerName innerBody old new)
include h

theorem get_old (hx : x.index < e.store.size) (hne : x ≠ e.current) : e'.store.get x = e.store.get x :=
  (h.others x (hx.trans_le h.planted.size) hne).trans (h.planted.get x hx)

theorem get_new (hx : x ∈ e.store.added s) : e'.store.get x = s.get x := by
  refine h.others x hx.2 ?_
  rintro rfl
  exact Nat.not_lt.2 hx.1 (h.before.inside _ h.before.current)

/-- What the function held is as it was. -/
theorem tree_old (hc : c ∈ e.store.children e.current) (hx : Below e.store.children c x) : e'.store.tree x = e.store.tree x := by
  have hforest := h.before.forest
  have hxK : x ∈ K := hforest.below_mem (hforest.closed _ h.before.current c hc) hx
  refine Store.tree_of_below hforest h.before.inside hxK h.after.forest h.after.inside (h.known hxK) fun y hy => ?_
  refine h.get_old (h.before.inside y (hforest.below_mem hxK hy)) ?_
  rintro rfl
  exact hforest.not_below_kid h.before.current hc (hx.trans hy)

/-- What is left of the wrapper is as it was read. -/
theorem tree_new (hx : x ∈ e.store.added s) (hx' : x ∈ K') : e'.store.tree x = s.tree x :=
  Store.tree_of_below h.planted.tops.forest (fun _ hx => hx.2) hx h.after.forest h.after.inside hx' fun _ hy =>
    h.get_new (h.planted.tops.forest.below_mem hx hy)

theorem children_old : e.store.children e.current = original.id.toList ++ original.params ++ [original.body] :=
  Node.children_of_func h.original

theorem get_current : e'.store.get e.current = e.node.withFunc { original with
    params := wrapper.params.tail, body := body, isAsync := original.isAsync || wrapper.isAsync } :=
  h.function.trans (congrArg (Node.withFunc · _) (h.planted.get _ (h.before.inside _ h.before.current)))

theorem func?_node : e'.node.func? = some { original with
    params := wrapper.params.tail, body := body, isAsync := original.isAsync || wrapper.isAsync } := by
  rw [node, h.current, h.get_current]
  exact Node.func?_withFunc h.original _

theorem children_current : e'.store.children e.current = original.id.toList ++ wrapper.params.tail ++ [body] := by
  rw [Store.children, h.get_current, Node.children_withFunc h.original]

theorem children_body : e'.store.children body = inner :: new := by
  rw [Store.children, h.block, Node.children_blockStatement]

theorem children_arrow : s.children id = wrapper.id.toList ++ wrapper.params ++ [wrapper.body] := by
  rw [Store.children, h.arrow]
  exact Node.children_of_func rfl

theorem current_mem : e.current ∈ K' := h.known h.before.current

theorem body_mem : body ∈ K' := h.after.forest.closed _ h.current_mem body (by simp [h.children_current])

theorem arrow_kid_mem (hx : x ∈ wrapper.id.toList ++ wrapper.params ++ [wrapper.body]) : x ∈ e.store.added s :=
  h.planted.tops.forest.closed id (h.planted.tops.loose id List.mem_cons_self).1 x (h.children_arrow ▸ hx)

theorem tree_inner : e'.store.tree inner = .mk (.functionDeclaration { original.map e.store.tree with
    id := some (.mk (.identifier name)), body := .mk (.blockStatement (e.store.tree original.body).bodyStatements) }) := by
  have hF := h.after.forest
  have hin := h.after.inside
  have hinner : inner ∈ K' := hF.closed body h.body_mem inner (by simp [h.children_body])
  have hkids : e'.store.children inner = innerName :: (original.params ++ [innerBody]) := by
    rw [Store.children, h.nested.function, Node.children_functionDeclaration]
    simp
  have hname : innerName ∈ K' := hF.closed inner hinner innerName (by simp [hkids])
  have hblock : innerBody ∈ K' := hF.closed inner hinner innerBody (by simp [hkids])
  have hold : ∀ x ∈ old, x ∈ K' := by
    intro x hx
    refine hF.closed innerBody hblock x ?_
    rwa [Store.children, h.nested.block, Node.children_blockStatement]
  have hbody : original.body ∈ e.store.children e.current := by simp [h.children_old]
  have hbodyK : original.body ∈ K := h.before.forest.closed _ h.before.current _ hbody
  have hne : original.body ≠ e.current := fun he => h.before.forest.not_below_kid h.before.current hbody (by rw [he]; exact .refl _)
  have hstatements := h.nested.body.map_tree h.before.forest h.before.inside hbodyK hF hin hold
    (h.get_old (h.before.inside _ hbodyK) hne) fun x hx _ => h.tree_old hbody hx
  have hparams : original.params.map e'.store.tree = original.params.map e.store.tree :=
    List.map_congr_left fun x hx => h.tree_old (c := x) (by simp [h.children_old, hx]) (.refl x)
  rw [Store.tree_eq hF hin hinner, h.nested.function, Node.map_functionDeclaration, Func.map, Func.map, hparams,
    Option.map_some, Store.tree_eq hF hin hname, h.nested.name, Store.tree_eq hF hin hblock, h.nested.block,
    Node.map_blockStatement, hstatements]
  rfl

theorem tree_body : e'.store.tree body = .mk (.blockStatement (e'.store.tree inner :: (s.tree wrapper.body).bodyStatements)) := by
  have hF := h.planted.tops.forest
  have hadded : wrapper.body ∈ e.store.added s := h.arrow_kid_mem (by simp)
  have hnew : ∀ x ∈ new, x ∈ K' := fun x hx => h.after.forest.closed body h.body_mem x (by simp [h.children_body, hx])
  have hstatements := h.statements.map_tree hF (fun x hx => hx.2) hadded h.after.forest h.after.inside hnew (h.get_new hadded)
    fun x hx => h.tree_new (hF.below_mem hadded hx)
  rw [Store.tree_eq h.after.forest h.after.inside h.body_mem, h.block, Node.map_blockStatement, List.map_cons, hstatements]

theorem tree_current : e'.store.tree e.current = .mk ((e.store.tree e.current).node.withFunc
    ((original.map e.store.tree).wrapped (wrapper.map s.tree) name)) := by
  have hid : original.id.map e'.store.tree = original.id.map e.store.tree :=
    Option.map_congr fun x hx => h.tree_old (c := x) (by simp [h.children_old, hx]) (.refl x)
  have hparams : wrapper.params.tail.map e'.store.tree = (wrapper.params.map s.tree).tail := by
    rw [← List.map_tail]
    refine List.map_congr_left fun x hx => h.tree_new (h.arrow_kid_mem (by simp [List.mem_of_mem_tail hx])) ?_
    exact h.after.forest.closed _ h.current_mem x (by simp [h.children_current, hx])
  have hbody := h.tree_body
  rw [h.tree_inner] at hbody
  have hfunc : Func.map e'.store.tree { original with
      params := wrapper.params.tail, body := body, isAsync := original.isAsync || wrapper.isAsync }
      = (original.map e.store.tree).wrapped (wrapper.map s.tree) name := by
    rw [Func.map, hid, hparams, hbody]
    rfl
  rw [Store.tree_eq h.after.forest h.after.inside h.current_mem, h.get_current, Node.map_withFunc _ h.original, hfunc,
    Store.tree_eq h.before.forest h.before.inside h.before.current]
  exact congrArg Tree.mk (Node.withFunc_map _ _ h.original _)

/-- What was below a node of the wrapper still is. -/
theorem below_new (hc : c ∈ e.store.added s) (hx : Below s.children c x) : Below e'.store.children c x := by
  refine (Below.agree_iff fun y hy => ?_).2 hx
  rw [Store.children, h.get_new (h.planted.tops.forest.below_mem hc hy), Store.children]

/-- The function has all of the wrapper but the arrow, a block that is its body, and the first parameter. -/
theorem taken (hid : wrapper.id = none) (hfirst : wrapper.params.head?.bind s.identifierName? = some name)
    (hx : Below s.children id x) : x = id ∨ x = wrapper.body ∧ (s.get x).isBlock = true ∨ wrapper.params.head? = some x ∨
      Below e'.store.children e.current x := by
  rcases Relation.ReflTransGen.cases_head hx with rfl | ⟨c, hc, hcx⟩
  · exact .inl rfl
  have hadded : c ∈ e.store.added s := h.arrow_kid_mem (h.children_arrow ▸ hc)
  have hbelow : Below e'.store.children e.current body := .kid (by simp [h.children_current])
  rw [h.children_arrow, hid] at hc
  simp only [Option.toList_none, List.nil_append, List.mem_append, List.mem_singleton] at hc
  rcases hc with hc | rfl
  · obtain ⟨first, rest, hparams⟩ := List.exists_cons_of_ne_nil (List.ne_nil_of_mem hc)
    rw [hparams] at hc hfirst
    rcases List.mem_cons.1 hc with rfl | hc
    · -- a name holds nothing
      have hname : s.get c = .identifier name := Node.identifierName?_iff.1 hfirst
      rcases Relation.ReflTransGen.cases_head hcx with rfl | ⟨d, hd, -⟩
      · exact .inr (.inr (.inl (by rw [hparams, List.head?_cons])))
      · simp [Store.children, hname] at hd
    · refine .inr (.inr (.inr ((Below.kid (c := c) ?_).trans (h.below_new hadded hcx))))
      simp [h.children_current, hparams, hc]
  · have hget := h.get_new hadded
    cases h.statements with
    | block hblock =>
      rw [hget] at hblock
      rcases Relation.ReflTransGen.cases_head hcx with rfl | ⟨d, hd, hdx⟩
      · exact .inr (.inl ⟨rfl, by rw [hblock, Node.isBlock]⟩)
      · have hd' : d ∈ e.store.added s := h.planted.tops.forest.closed _ hadded d hd
        rw [Store.children, hblock, Node.children_blockStatement] at hd
        refine .inr (.inr (.inr ((hbelow.tail ?_).trans (h.below_new hd' hdx))))
        simp [h.children_body, hd]
    | @expression ret _ hret =>
      refine .inr (.inr (.inr (((hbelow.tail (c := ret) ?_).tail ?_).trans (h.below_new hadded hcx))))
      · simp [h.children_body]
      · simp [Store.children, hret]

end Over

/-- The function has all that it had. -/
theorem Wrapped.kept {K' : Set NodeId} {original : Func NodeId} {inner body : NodeId} (h : Sound e K)
    (hw : Wrapped e e' K K' original inner body) (ho : e.node.func? = some original) (hx : Below e.store.children e.current x) :
    Below e'.store.children e.current x := by
  rcases Relation.ReflTransGen.cases_head hx with rfl | ⟨c, hc, hcx⟩
  · exact .refl _
  have hcK : c ∈ K := h.forest.closed _ h.current c hc
  have hrest : Below e'.store.children c x := by
    refine (Below.agree_iff fun y hy => hw.others y (h.forest.below_mem hcK hy) ?_).2 hcx
    rintro rfl
    exact h.forest.not_below_kid h.current hc hy
  rw [Store.children, ← node, Node.children_of_func ho] at hc
  simp only [List.mem_append, List.mem_singleton] at hc
  rcases hc with (hc | hc) | rfl
  · exact (Below.kid (hw.name c hc)).trans hrest
  · exact (hw.inside.tail (hw.params c hc)).trans hrest
  · exact hw.below.trans hrest

theorem wrap_over {code : String} (h : Sound e K) (he : e.wrap code = .ok e') : ∃ K' s id original wrapper name body inner innerName
    innerBody old new, Over e e' K K' s id original wrapper name body inner innerName innerBody old new ∧
      Source.Wraps code original.params.length (wrapper.map s.tree) name ∧
      e.store.insert (.mk (.arrowFunctionExpression (wrapper.map s.tree))) = (id, s) := by
  obtain ⟨original, w, name, id, s, wrapper, ho, hwraps, hstore, hwrapper, rfl, he'⟩ := wrap_reads he
  obtain ⟨original', K', inner', body', ho', hw⟩ := wrap_wrapped h he
  obtain rfl : original' = original := Option.some.inj (ho'.symm.trans ho)
  have hp : e.store.Planted s [id] := by
    have hp := Store.insert_planted (.mk (.arrowFunctionExpression (wrapper.map s.tree))) e.store
    rwa [hstore] at hp
  have hcurrent := h.inside _ h.current
  have hget : s.get e.current = e.node := hp.get _ hcurrent
  have hbody : original'.body ∈ e.store.children e.current := by
    rw [Store.children, ← node, Node.children_of_func ho]
    simp
  have hbodyK : original'.body ∈ K := h.forest.closed _ h.current _ hbody
  have hne : original'.body ≠ e.current := fun he => h.forest.not_below_kid h.current hbody (by rw [he]; exact .refl _)
  have hwbody : wrapper.body ∈ e.store.added s := by
    refine hp.tops.forest.closed id (hp.tops.loose id List.mem_cons_self).1 _ ?_
    rw [Store.children, hwrapper, Node.children_of_func rfl]
    simp
  obtain ⟨body, inner, innerName, innerBody, old, new, hl⟩ := wrapFunction_laid (e := { e with store := s }) name (hget ▸ ho)
    ((h.inside _ hbodyK).trans_le hp.size) hne hwbody.2 fun he => Nat.not_lt.2 hwbody.1 (he ▸ hcurrent)
  rw [← he'] at hl
  exact ⟨K', s, id, original', wrapper, name, body, inner, innerName, innerBody, old, new,
    ⟨hl, h, hw.sound, hw.known, ho, hp, hwrapper, fun x => hw.kept h ho, hw.root, hw.current⟩, hwraps, hstore⟩

theorem wrap_rewrapped {code : String} (h : Sound e K) (he : e.wrap code = .ok e') :
    ∃ f w name, Source.Wraps code f.params.length w name ∧ Rewrapped e e' f w name := by
  obtain ⟨K', s, id, original, wrapper, name, body, inner, innerName, innerBody, old, new, ho, hwraps, hstore⟩ := wrap_over h he
  have hlayer := Store.tree_eq h.forest h.inside h.current
  have hin : ∀ x ∈ e.store.added s, x.index < s.size := fun x hx => hx.2
  have htree : s.tree id = .mk (.arrowFunctionExpression (wrapper.map s.tree)) := by
    rw [Store.tree_eq ho.planted.tops.forest hin (ho.planted.tops.loose id List.mem_cons_self).1, ho.arrow, Node.map_arrowFunctionExpression]
  have hfirst := ((wraps_iff ho.planted hwraps.reads htree ho.arrow).1 hwraps).2.1
  have hid : wrapper.id = none := by
    have hnone : (wrapper.id.map s.tree).isNone = true := (Source.readExpression_fits hwraps.reads).allows
    simpa using hnone
  refine ⟨original.map e.store.tree, wrapper.map s.tree, name, ?_, ?_, ho.tree_current, fun x hx hne => ho.get_old hx hne,
    fun changed hc => ?_, ho.kept, fun id' s' wrapper' hs' hw' x hx => ?_, ho.after.forest.isTree ho.current_mem, ho.root, ho.current⟩
  · rwa [Func.map, List.length_map]
  · rw [hlayer, Tree.node, Node.func?_map, ← node, ho.original, Option.map_some]
  · rw [hstore, ← Option.some.inj (ho.func?_node.symm.trans hc)]
    exact ho.fresh
  · obtain ⟨rfl, rfl⟩ := Prod.mk.inj (hstore.symm.trans hs')
    obtain rfl : wrapper = wrapper' := Node.arrowFunctionExpression.inj (ho.arrow.symm.trans hw')
    exact ho.taken hid hfirst hx

/-! ## Wraps one after the other -/

/-- Wraps of the function at the cursor, each around the last. -/
def wrapEach (codes : List String) (e : Editor) : Result := codes.foldlM (fun e code => e.wrap code) e

theorem wrapEach_cons {code : String} {codes : List String} :
    wrapEach (code :: codes) e = .ok e' ↔ ∃ e₁, e.wrap code = .ok e₁ ∧ wrapEach codes e₁ = .ok e' := by
  constructor
  · intro he
    rw [wrapEach, List.foldlM_cons] at he
    exact bind_eq_ok he
  · rintro ⟨e₁, he₁, he⟩
    rw [wrapEach, List.foldlM_cons, he₁]
    exact he

/-- A wrap leaves a function of the same arity. -/
theorem wrap_arity {code : String} {original : Func NodeId} (h : Sound e K) (ho : e.node.func? = some original)
    (he : e.wrap code = .ok e') : ∃ K' changed, Sound e' K' ∧ e'.node.func? = some changed ∧
      changed.params.length = original.params.length := by
  obtain ⟨K', s, id, original', wrapper, name, body, inner, innerName, innerBody, old, new, hover, hwraps, -⟩ := wrap_over h he
  obtain rfl : original' = original := Option.some.inj (hover.original.symm.trans ho)
  have harity := hwraps.arity
  rw [Func.map, List.length_map] at harity
  refine ⟨K', _, hover.after, hover.func?_node, ?_⟩
  rw [List.length_tail, harity, Nat.add_sub_cancel]

/-- So any series of wraps succeeds whose codes all wrap functions of that arity. -/
theorem wrapEach_iff {original : Func NodeId} {codes : List String} (h : Sound e K) (ho : e.node.func? = some original) :
    (∃ e', wrapEach codes e = .ok e') ↔ ∀ code ∈ codes, ∃ w name, Source.Wraps code original.params.length w name := by
  induction codes generalizing e K original with
  | nil => exact ⟨fun _ => nofun, fun _ => ⟨e, rfl⟩⟩
  | cons code codes ih =>
    rw [List.forall_mem_cons]
    have hrest {e₁ : Editor} (he₁ : e.wrap code = .ok e₁) : (∃ e', wrapEach codes e₁ = .ok e') ↔
        ∀ code ∈ codes, ∃ w name, Source.Wraps code original.params.length w name := by
      obtain ⟨K₁, changed, hs, hchanged, harity⟩ := wrap_arity h ho he₁
      rw [ih hs hchanged, harity]
    constructor
    · rintro ⟨e', he⟩
      obtain ⟨e₁, he₁, he⟩ := wrapEach_cons.1 he
      obtain ⟨original', w, name, -, -, -, ho', hwraps, -⟩ := wrap_reads he₁
      obtain rfl : original' = original := Option.some.inj (ho'.symm.trans ho)
      exact ⟨⟨w, name, hwraps⟩, (hrest he₁).1 ⟨e', he⟩⟩
    · rintro ⟨⟨w, name, hwraps⟩, hcodes⟩
      obtain ⟨e₁, he₁⟩ := exists_wrap ho hwraps
      obtain ⟨e', he⟩ := (hrest he₁).2 hcodes
      exact ⟨e', wrapEach_cons.2 ⟨e₁, he₁, he⟩⟩

end Editor

namespace Editing

/-- In whatever state an editor is left on a tree, with the cursor on whatever node: a wrap succeeds exactly at a function, with an
arrow function that has one parameter more and a plain name for the first. It puts both functions together without loss and changes
no other node, and it can be repeated with any such arrows. -/
theorem run_wrap_rewraps (t : Tree) (moves : List Move) {e : Editor} (he : ((start t).run moves).editor = e) {x : NodeId}
    (hx : Below e.store.children e.store.root x ∨ Below e.store.children e.current x) :
    (∀ code, (∃ e', (e.moveTo x).wrap code = .ok e') ↔
      ∃ f w name, (e.moveTo x).node.func? = some f ∧ Source.Wraps code f.params.length w name) ∧
    (∀ code e', (e.moveTo x).wrap code = .ok e' →
      ∃ f w name, Source.Wraps code f.params.length w name ∧ Editor.Rewrapped (e.moveTo x) e' f w name) ∧
    ∀ codes f, (e.moveTo x).node.func? = some f → ((∃ e', Editor.wrapEach codes (e.moveTo x) = .ok e') ↔
      ∀ code ∈ codes, ∃ w name, Source.Wraps code f.params.length w name) := by
  subst he
  obtain ⟨K, hs⟩ := run_sound_at t moves hx
  refine ⟨fun code => ⟨?_, ?_⟩, fun code e' => Editor.wrap_rewrapped hs, fun codes f hf => Editor.wrapEach_iff hs hf⟩
  · rintro ⟨e', he'⟩
    obtain ⟨f, w, name, -, -, -, hf, hwraps, -⟩ := Editor.wrap_reads he'
    exact ⟨f, w, name, hf, hwraps⟩
  · rintro ⟨f, w, name, hf, hwraps⟩
    exact Editor.exists_wrap hf hwraps

/-- A function with a block, and an asynchronous arrow function with an expression around it. -/
theorem named_function_rewrapped : ∃ t, Source.readProgram "function f(a) \x7b return a; \x7d" = .ok t ∧
    let e := ((start t).run [.gotoElement "body" 0]).editor
    ∃ e', (e.moveTo e.current).wrap "async (original, b) => original(b)" = .ok e' ∧
      e'.print = "async function f(b) \x7b\n  function original(a) \x7b\n    return a;\n  \x7d\n  return original(b);\n\x7d" ∧
      ∃ f w name, Source.Wraps "async (original, b) => original(b)" f.params.length w name ∧
        Editor.Rewrapped (e.moveTo e.current) e' f w name := by
  have facts : (Source.readProgram "function f(a) \x7b return a; \x7d").toOption.any (fun t =>
      let e := ((start t).run [.gotoElement "body" 0]).editor
      ((e.moveTo e.current).wrap "async (original, b) => original(b)").toOption.any fun e' => e'.print =
        "async function f(b) \x7b\n  function original(a) \x7b\n    return a;\n  \x7d\n  return original(b);\n\x7d") = true := by
    decide +kernel
  cases hr : Source.readProgram "function f(a) \x7b return a; \x7d" with
  | error => simp [hr, Except.toOption] at facts
  | ok t =>
    simp only [hr, Except.toOption, Option.any_some] at facts
    cases he : (((start t).run [.gotoElement "body" 0]).editor.moveTo ((start t).run [.gotoElement "body" 0]).editor.current).wrap
        "async (original, b) => original(b)" with
    | error => simp [he] at facts
    | ok e' =>
      simp only [he, Option.any_some] at facts
      exact ⟨t, rfl, e', he, of_decide_eq_true facts, (run_wrap_rewraps t _ rfl (.inr (.refl _))).2.1 _ e' he⟩

end Editing
end Graft