import Graft.Proofs.Edit.Change
/-!
# Wrapping

While `wrapFunction` works, the function it wraps counts as emptied: `Draft` keeps the list of nodes that wait for a new
place, first what the function held and the wrapper, and each allocation replaces the nodes it takes by the new one.
-/

namespace Graft

variable {s₀ s s' : Store} {K₀ K K' : Set NodeId} {w body : NodeId} {held ls rest : List NodeId}

/-! ## Bodies -/

namespace Editor

theorem blockBody_of_block (hb : (s.get body).isBlock = true) : blockBody s body = (body, s) := by simp [blockBody, hb]

theorem blockBody_of_expression (hb : (s.get body).isBlock = false) :
    blockBody s body = (s.alloc (.returnStatement (some body))).2.alloc
      (.blockStatement [(s.alloc (.returnStatement (some body))).1]) := by
  unfold blockBody bodyStatements allocBlock
  cases hn : s.get body <;> simp_all [Node.isBlock]

theorem mem_bodyStatements {c : NodeId} (hc : c ∈ (bodyStatements s body).1) :
    c ∈ s.children body ∨ s.size ≤ c.index := by
  unfold bodyStatements at hc
  split at hc
  next hs => exact .inl (by simpa [Store.children, hs] using hc)
  next =>
    obtain rfl : c = (s.alloc (.returnStatement (some body))).1 := by simpa using hc
    exact .inr (Nat.le_refl _)

theorem bodyStatements_extends (s : Store) (body : NodeId) :
    ∃ held, Store.Extends s (bodyStatements s body).2 held := by
  unfold bodyStatements
  split
  next => exact ⟨[], .refl s⟩
  next => exact ⟨_, .alloc s _⟩

theorem blockBody_extends (s : Store) (body : NodeId) : ∃ held, Store.Extends s (blockBody s body).2 held := by
  cases hb : (s.get body).isBlock with
  | true =>
    rw [blockBody_of_block hb]
    exact ⟨[], .refl s⟩
  | false =>
    rw [blockBody_of_expression hb]
    exact ⟨_, (Store.Extends.alloc s _).trans (.alloc _ _)⟩

/-- The block holds the body, and `w` plays no part in that. -/
theorem blockBody_below (body : NodeId) (hw : w.index < s.size) :
    Below (Function.update (blockBody s body).2.children w []) (blockBody s body).1 body := by
  cases hb : (s.get body).isBlock with
  | true =>
    rw [blockBody_of_block hb]
    exact .refl body
  | false =>
    rw [blockBody_of_expression hb]
    obtain ⟨ret, s₁, hs₁⟩ : ∃ ret s₁, s.alloc (.returnStatement (some body)) = (ret, s₁) := ⟨_, _, rfl⟩
    obtain ⟨block, s₂, hs₂⟩ : ∃ block s₂, s₁.alloc (.blockStatement [ret]) = (block, s₂) := ⟨_, _, rfl⟩
    have hkids₁ : s₁.children = Function.update s.children ret [body] := by
      simpa [hs₁] using Store.children_alloc (s := s) (n := .returnStatement (some body))
    have hkids₂ : s₂.children = Function.update s₁.children block [ret] := by
      simpa [hs₂] using Store.children_alloc (s := s₁) (n := .blockStatement [ret])
    have hret : ret.index = s.size := by rw [← show _ = ret from congrArg Prod.fst hs₁]; rfl
    have hblock : block.index = s.size + 1 := by
      rw [← show _ = block from congrArg Prod.fst hs₂, Store.index_alloc, ← show _ = s₁ from congrArg Prod.snd hs₁, Store.size_alloc]
    -- the new nodes are distinct, and none of them is `w`
    have ne {x y : NodeId} (h : x.index ≠ y.index) : x ≠ y := fun he => h (congrArg NodeId.index he)
    have hbw : block ≠ w := ne (by omega)
    have hrw : ret ≠ w := ne (by omega)
    have hrb : ret ≠ block := ne (by omega)
    simp only [hs₁, hs₂]
    refine (Below.kid (c := ret) ?_).trans (.kid ?_)
    · rw [Function.update_of_ne hbw, hkids₂, Function.update_self]
      exact List.mem_singleton_self ret
    · rw [Function.update_of_ne hrw, hkids₂, Function.update_of_ne hrb, hkids₁, Function.update_self]
      exact List.mem_singleton_self body

end Editor

/-! ## Nodes in waiting -/

/-- `s` is `s₀` with new slots, and apart from what `w` holds the known nodes form a forest with tops `ls`. -/
structure Draft (s₀ s : Store) (K₀ K : Set NodeId) (w : NodeId) (held ls : List NodeId) : Prop where
  grown : Store.Extends s₀ s held
  spare : Spare (Function.update s.children w []) K w ls
  inside : ∀ x ∈ K, x.index < s.size
  known : K₀ ⊆ K
  new : ∀ x ∈ K, x ∈ K₀ ∨ x ∈ s₀.added s
  source : ∀ ℓ ∈ ls, ℓ ∈ held ∨ ℓ ∈ s₀.added s

namespace Draft

theorem take (h : Draft s₀ s K₀ K w held ls) (rest : List NodeId) (hs : ∀ x, rest.count x ≤ ls.count x) : Draft s₀ s K₀ K w held rest :=
  have hsub : List.Subperm rest ls := List.subperm_ext_iff.2 fun x _ => hs x
  { h with spare := h.spare.take hsub, source := fun ℓ hℓ => h.source ℓ (hsub.subset hℓ) }

theorem ne (h : Draft s₀ s K₀ K w held ls) {x : NodeId} (hx : x ∈ ls) : x ≠ w := by
  rintro rfl
  exact h.spare.above x hx (.refl x)

theorem alloc (h : Draft s₀ s K₀ K w held ls) (n : Node NodeId) (rest : List NodeId)
    (hs : ∀ x, (n.children ++ rest).count x ≤ ls.count x) :
    Draft s₀ (s.alloc n).2 K₀ (insert (s.alloc n).1 K) w held ((s.alloc n).1 :: rest) := by
  have ht : Draft s₀ s K₀ K w held (n.children ++ rest) := h.take _ hs
  have hfresh : (s.alloc n).1 ∉ K := fun hK => Nat.lt_irrefl _ (h.inside _ hK)
  have hne : (s.alloc n).1 ≠ w := fun he => hfresh (he ▸ h.spare.mem)
  have grow {x : NodeId} (hx : x ∈ s₀.added s) : x ∈ s₀.added (s.alloc n).2 :=
    ⟨hx.1, by rw [Store.size_alloc]; exact hx.2.trans (Nat.lt_succ_self _)⟩
  have hself : (s.alloc n).1 ∈ s₀.added (s.alloc n).2 :=
    ⟨h.grown.size, by rw [Store.size_alloc]; exact Nat.lt_succ_self _⟩
  -- what the new node holds was held by the function before, or is new itself
  have hext := h.grown.trans (Store.Extends.alloc s n)
  refine ⟨⟨hext.root, hext.size, hext.get, fun p hp c hc => ?_⟩, ?_, ?_, ?_, ?_, ?_⟩
  · rcases hext.holds p hp c hc with hc | hc
    · rcases List.mem_append.1 hc with hc | hc
      · exact .inl hc
      · exact (ht.source c (List.mem_append_left _ hc)).imp_right grow
    · exact .inr hc
  · rw [Store.children_alloc, Function.update_comm hne]
    exact ht.spare.alloc hfresh
  · rintro x (rfl | hx)
    · exact hself.2
    · exact (h.inside x hx).trans (by rw [Store.size_alloc]; exact Nat.lt_succ_self _)
  · exact fun x hx => .inr (h.known hx)
  · rintro x (rfl | hx)
    · exact .inr hself
    · exact (h.new x hx).imp_right grow
  · intro ℓ hℓ
    rcases List.mem_cons.1 hℓ with rfl | hℓ
    · exact .inr hself
    · exact (ht.source ℓ (List.mem_append_right _ hℓ)).imp_right grow

/-- A new node is left out, and what it held waits in its place. -/
theorem opened {g : NodeId} (h : Draft s₀ s K₀ K w held (g :: ls)) (hg : g ∉ K₀) :
    Draft s₀ s K₀ (K \ {g}) w held (s.children g ++ ls) := by
  have hkids : Function.update s.children w [] g = s.children g := Function.update_of_ne (h.ne List.mem_cons_self) ..
  have hadded : g ∈ s₀.added s := (h.new g (h.spare.loose g List.mem_cons_self).1).resolve_left hg
  refine ⟨h.grown, hkids ▸ h.spare.opened, fun x hx => h.inside x hx.1, fun x hx => ⟨h.known hx, ?_⟩,
    fun x hx => h.new x hx.1, fun ℓ hℓ => ?_⟩
  · rintro rfl
    exact hg hx
  · rcases List.mem_append.1 hℓ with hℓ | hℓ
    · exact h.grown.holds g hadded.1 ℓ hℓ
    · exact h.source ℓ (List.mem_cons_of_mem _ hℓ)

/-- The statements of a new body, in place of the body. -/
theorem bodyStatements (h : Draft s₀ s K₀ K w held (body :: ls)) (hb : body ∉ K₀) :
    ∃ K', Draft s₀ (Editor.bodyStatements s body).2 K₀ K' w held ((Editor.bodyStatements s body).1 ++ ls) := by
  unfold Editor.bodyStatements
  split
  next statements hs =>
    refine ⟨K \ {body}, ?_⟩
    simpa [Store.children, hs] using h.opened hb
  next => exact ⟨_, by simpa using h.alloc (.returnStatement (some body)) ls (by simp)⟩

/-- A block that waits in place of the body. -/
theorem blockBody (h : Draft s₀ s K₀ K w held (body :: ls)) :
    ∃ K', Draft s₀ (Editor.blockBody s body).2 K₀ K' w held ((Editor.blockBody s body).1 :: ls) := by
  cases hb : (s.get body).isBlock with
  | true =>
    rw [Editor.blockBody_of_block hb]
    exact ⟨K, h⟩
  | false =>
    rw [Editor.blockBody_of_expression hb]
    have hret := h.alloc (.returnStatement (some body)) ls (by simp)
    exact ⟨_, hret.alloc (.blockStatement [_]) ls (by simp)⟩

end Draft

/-! ## The new nodes of a wrap -/

namespace Editor

/-- The inner function that takes over the wrapped one's parameters and body. -/
def allocInner (s : Store) (original : Func NodeId) (name : String) : NodeId × Store :=
  let (innerBody, s) := blockBody s original.body
  let (innerId, s) := s.alloc (.identifier name)
  s.alloc (.functionDeclaration { original with id := some innerId, body := innerBody })

/-- The new body: the inner function before the wrapper's statements. -/
def allocOuter (s : Store) (inner body : NodeId) : NodeId × Store :=
  let (statements, s) := bodyStatements s body
  allocBlock s (inner :: statements)

theorem wrapFunction_eq (e : Editor) (target : NodeId) (original wrapper : Func NodeId) (name : String) :
    e.wrapFunction target original wrapper name =
      (let (inner, s) := allocInner e.store original name
       let (body, s) := allocOuter s inner wrapper.body
       let s := s.set target ((s.get target).withFunc { original with
         params := wrapper.params.tail, body := body, isAsync := original.isAsync || wrapper.isAsync })
       { e with
         store := s
         parents := ((e.parents.linkChildren s target).linkChildren s body).linkChildren s inner }) := rfl

variable {original : Func NodeId} {name : String} {inner : NodeId}

structure InnerOf (s s' : Store) (original : Func NodeId) (inner : NodeId) : Prop where
  grown : ∃ held, Store.Extends s s' held
  new : inner ∈ s.added s'
  params : ∀ c ∈ original.params, c ∈ s'.children inner
  block : (s.get original.body).isBlock = true → original.body ∈ s'.children inner
  expression : (s.get original.body).isBlock = false → original.body.index < s.size →
    original.body ∉ original.params → original.body ∉ s'.children inner
  below : ∀ w, w.index < s.size → Below (Function.update s'.children w []) inner original.body

theorem allocInner_spec (s : Store) (original : Func NodeId) (name : String) :
    InnerOf s (allocInner s original name).2 original (allocInner s original name).1 := by
  obtain ⟨block, s₁, hs₁⟩ : ∃ block s₁, blockBody s original.body = (block, s₁) := ⟨_, _, rfl⟩
  obtain ⟨innerId, s₂, hs₂⟩ : ∃ innerId s₂, s₁.alloc (.identifier name) = (innerId, s₂) := ⟨_, _, rfl⟩
  have hinner : allocInner s original name
      = s₂.alloc (.functionDeclaration { original with id := some innerId, body := block }) := by
    simp only [allocInner, hs₁, hs₂]
  have hkids : (allocInner s original name).2.children (allocInner s original name).1
      = innerId :: (original.params ++ [block]) := by
    rw [hinner, Store.children, Store.get_alloc_self, Node.children_functionDeclaration]
    simp
  obtain ⟨held, hext⟩ := blockBody_extends s original.body
  simp only [hs₁] at hext
  have hext₂ := Store.Extends.alloc s₁ (.identifier name)
  simp only [hs₂] at hext₂
  have hext₃ := Store.Extends.alloc s₂ (.functionDeclaration { original with id := some innerId, body := block })
  rw [← hinner] at hext₃
  have hId : innerId.index = s₁.size := by rw [← show _ = innerId from congrArg Prod.fst hs₂]; rfl
  -- a body that is an expression is put in a new block, and only that is held
  refine ⟨⟨_, (hext.trans hext₂).trans hext₃⟩, ?_, ?_, fun hb => ?_, fun hb hlt hnot => ?_, fun w hw => ?_⟩
  · rw [hinner]
    refine ⟨(hext.trans hext₂).size, ?_⟩
    rw [Store.size_alloc]
    exact Nat.lt_succ_self _
  · intro c hc
    simp [hkids, hc]
  · rw [blockBody_of_block hb] at hs₁
    simp [hkids, show original.body = block from congrArg Prod.fst hs₁]
  · rw [blockBody_of_expression hb] at hs₁
    have hblock : block.index = s.size + 1 := by
      rw [← show _ = block from congrArg Prod.fst hs₁, Store.index_alloc, Store.size_alloc]
    have := hext.size
    rw [hkids]
    intro hmem
    rcases List.mem_cons.1 hmem with he | hmem
    · rw [he] at hlt
      omega
    · rcases List.mem_append.1 hmem with hmem | hmem
      · exact hnot hmem
      · rw [List.mem_singleton.1 hmem] at hlt
        omega
  · have hbelow := blockBody_below original.body hw
    simp only [hs₁] at hbelow
    have hne : (allocInner s original name).1 ≠ w := by
      rintro rfl
      rw [hinner, Store.index_alloc] at hw
      have := (hext.trans hext₂).size
      omega
    refine (Below.kid ?_).trans ((hext₂.trans hext₃).below_emptied hbelow)
    rw [Function.update_of_ne hne, hkids]
    simp

structure OuterOf (s s' : Store) (inner old body : NodeId) : Prop where
  grown : ∃ held, Store.Extends s s' held
  new : body ∈ s.added s'
  first : inner ∈ s'.children body
  statements : ∀ c ∈ s'.children body, c = inner ∨ c ∈ s.children old ∨ s.size ≤ c.index

theorem allocOuter_spec (s : Store) (inner old : NodeId) :
    OuterOf s (allocOuter s inner old).2 inner old (allocOuter s inner old).1 := by
  obtain ⟨statements, s₁, hs₁⟩ : ∃ statements s₁, bodyStatements s old = (statements, s₁) := ⟨_, _, rfl⟩
  have houter : allocOuter s inner old = s₁.alloc (.blockStatement (inner :: statements)) := by
    simp only [allocOuter, hs₁, allocBlock]
  have hkids : (allocOuter s inner old).2.children (allocOuter s inner old).1 = inner :: statements := by
    rw [houter, Store.children, Store.get_alloc_self, Node.children_blockStatement]
  obtain ⟨held, hext⟩ := bodyStatements_extends s old
  simp only [hs₁] at hext
  refine ⟨⟨_, houter ▸ hext.trans (.alloc s₁ _)⟩, ?_, by simp [hkids], fun c hc => ?_⟩
  · rw [houter]
    refine ⟨hext.size, ?_⟩
    rw [Store.size_alloc]
    exact Nat.lt_succ_self _
  · rw [hkids] at hc
    rcases List.mem_cons.1 hc with he | hc
    · exact .inl he
    · exact .inr (mem_bodyStatements (by rwa [hs₁]))

end Editor

namespace Draft
variable {original : Func NodeId} {inner : NodeId}

theorem allocInner (name : String) (h : Draft s₀ s K₀ K w held (original.body :: (original.params ++ ls))) :
    ∃ K', Draft s₀ (Editor.allocInner s original name).2 K₀ K' w held ((Editor.allocInner s original name).1 :: ls) := by
  obtain ⟨K₁, h₁⟩ := h.blockBody
  obtain ⟨block, s₁, hs₁⟩ : ∃ block s₁, Editor.blockBody s original.body = (block, s₁) := ⟨_, _, rfl⟩
  obtain ⟨innerId, s₂, hs₂⟩ : ∃ innerId s₂, s₁.alloc (.identifier name) = (innerId, s₂) := ⟨_, _, rfl⟩
  have h₂ := h₁.alloc (.identifier name) ((Editor.blockBody s original.body).1 :: (original.params ++ ls))
    (by simp)
  simp only [hs₁, hs₂] at h₂
  simp only [Editor.allocInner, hs₁, hs₂]
  exact ⟨_, h₂.alloc (.functionDeclaration { original with id := some innerId, body := block }) _
    (by intro x; simp [Node.children_functionDeclaration, List.count_cons]; omega)⟩

theorem allocOuter (h : Draft s₀ s K₀ K w held (body :: inner :: ls)) (hb : body ∉ K₀) :
    ∃ K', Draft s₀ (Editor.allocOuter s inner body).2 K₀ K' w held ((Editor.allocOuter s inner body).1 :: ls) ∧
      inner ∈ K' := by
  obtain ⟨K₁, h₁⟩ := h.bodyStatements hb
  refine ⟨_, h₁.alloc (.blockStatement (inner :: (Editor.bodyStatements s body).1)) _
    (by intro x; simp [List.count_cons]; omega), .inr (h₁.spare.loose inner (by simp)).1⟩

end Draft

/-! ## Wrapping a function -/

namespace Editor
variable {e e' : Editor} {K K' : Set NodeId} {original wrapper : Func NodeId} {inner body : NodeId} {code : String}

/-- The nodes that wait for a place when a wrap begins. -/
theorem Draft.start {s : Store} {id : NodeId} (h : Sound e K) (hp : e.store.Planted s [id]) :
    Draft e.store s K (K ∪ e.store.added s) e.current (e.store.children e.current)
      (e.store.children e.current ++ [id]) := by
  have apart (x : NodeId) (hx : x ∈ e.store.added s) : x ∉ K := fun hK => Nat.not_lt.2 hx.1 (h.inside x hK)
  have hspare : Spare (Function.update s.children e.current []) K e.current (e.store.children e.current) := by
    refine (Spare.emptied h.forest h.current).congr fun x hx => ?_
    by_cases hxc : x = e.current
    · rw [hxc, Function.update_self, Function.update_self]
    · rw [Function.update_of_ne hxc, Function.update_of_ne hxc, hp.children (h.inside x hx)]
  have htops : Tops (Function.update s.children e.current []) (e.store.added s) [id] := by
    refine hp.tops.congr fun x hx => Function.update_of_ne ?_ _ _
    rintro rfl
    exact apart _ hx h.current
  refine ⟨⟨hp.root, hp.size, hp.get, fun p hp' c hc => .inr ((hp.holds p hp' c hc).resolve_left (by simp))⟩,
    hspare.join htops apart, ?_, fun _ => .inl, fun _ hx => hx, fun ℓ hℓ => ?_⟩
  · rintro x (hx | hx)
    · exact (h.inside x hx).trans_le hp.size
    · exact hx.2
  · exact (List.mem_append.1 hℓ).imp_right fun hℓ => (hp.tops.loose ℓ hℓ).1

/-- The new nodes of a wrap, before the wrapped function is written. -/
structure Prepared (e : Editor) (s' : Store) (K K' : Set NodeId) (original wrapper : Func NodeId)
    (inner body : NodeId) : Prop where
  draft : Draft e.store s' K K' e.current (e.store.children e.current)
    (original.id.toList ++ wrapper.params.tail ++ [body])
  place : inner ∈ K'
  added : inner ∉ K ∧ body ∉ K ∧ ∀ c ∈ wrapper.params.tail, c ∉ K
  params : ∀ c ∈ original.params, c ∈ s'.children inner
  block : (e.store.get original.body).isBlock = true → original.body ∈ s'.children inner
  expression : (e.store.get original.body).isBlock = false → original.body ∉ s'.children inner
  first : inner ∈ s'.children body
  statements : ∀ c ∈ s'.children body, c ∉ K
  below : Below (Function.update s'.children e.current []) inner original.body

/-- The editor after the wrapped function is written. -/
def rewired (e : Editor) (s : Store) (changed : Func NodeId) (body inner : NodeId) : Editor :=
  let s := s.set e.current ((s.get e.current).withFunc changed)
  { e with
    store := s
    parents := ((e.parents.linkChildren s e.current).linkChildren s body).linkChildren s inner }

/-- What a wrap leaves: only the cursor's node among the known ones changed, new nodes hold new nodes and nodes that the
function held, and the function, its new body and the inner function have fresh links. -/
structure Wrapped (e e' : Editor) (K K' : Set NodeId) (original : Func NodeId) (inner body : NodeId) : Prop where
  sound : Sound e' K'
  known : K ⊆ K'
  root : e'.store.root = e.store.root
  current : e'.current = e.current
  others : ∀ p ∈ K, p ≠ e.current → e'.store.children p = e.store.children p
  target : ∀ c ∈ e'.store.children e.current, c ∈ K → c ∈ original.id.toList
  name : ∀ c ∈ original.id.toList, c ∈ e'.store.children e.current
  new : ∀ p ∈ K', p ∉ K → ∀ c ∈ e'.store.children p, c ∈ K → c ∈ e.store.children e.current
  params : ∀ c ∈ original.params, c ∈ e'.store.children inner
  block : (e.store.get original.body).isBlock = true → original.body ∈ e'.store.children inner
  expression : (e.store.get original.body).isBlock = false → original.body ∉ e'.store.children inner
  statements : ∀ c ∈ e'.store.children body, c ∉ K
  inside : Below e'.store.children e.current inner
  below : Below e'.store.children e.current original.body
  places : inner ∈ K' ∧ body ∈ K'
  links : ∀ c, e'.parents.get? c =
    if c ∈ e'.store.children inner then some inner
    else if c ∈ e'.store.children body then some body
    else if c ∈ e'.store.children e.current then some e.current
    else e.parents.get? c

theorem wrapFunction_prepared {s : Store} {id : NodeId} (name : String) (h : Sound e K) (ho : e.node.func? = some original)
    (hp : e.store.Planted s [id]) (hw : s.get id = .arrowFunctionExpression wrapper) :
    ∃ K' inner body s' changed, Prepared e s' K K' original wrapper inner body ∧
      changed.id = original.id ∧ changed.params = wrapper.params.tail ∧ changed.body = body ∧
      ({ e with store := s } : Editor).wrapFunction e.current original wrapper name = rewired e s' changed body inner := by
  have hkids : e.store.children e.current = original.id.toList ++ original.params ++ [original.body] :=
    Node.children_of_func ho
  have hwkids : s.children id = wrapper.id.toList ++ wrapper.params ++ [wrapper.body] := by
    rw [Store.children, hw]
    exact Node.children_of_func rfl
  have hnew {x : NodeId} (hx : e.store.size ≤ x.index) : x ∉ K := fun hK => Nat.not_lt.2 hx (h.inside x hK)
  have hid : id ∈ e.store.added s := (hp.tops.loose id List.mem_cons_self).1
  have hwnew {x : NodeId} (hx : x ∈ s.children id) : x ∈ e.store.added s := hp.tops.forest.closed id hid x hx
  -- the inner function takes the function's parameters and body
  have hin := allocInner_spec s original name
  obtain ⟨K₁, hd₁⟩ := ((Draft.start h hp).take (original.body :: (original.params ++ (id :: original.id.toList)))
    (by intro x; simp [hkids, List.count_cons]; omega)).allocInner name
  obtain ⟨inner, s₁, hs₁⟩ : ∃ inner s₁, allocInner s original name = (inner, s₁) := ⟨_, _, rfl⟩
  simp only [hs₁] at hin hd₁
  obtain ⟨held₁, hext₁⟩ := hin.grown
  -- the wrapper is taken apart, and its statements follow the inner function
  have hd₂ := (hd₁.take (id :: inner :: original.id.toList) (by intro x; simp [List.count_cons]; omega)).opened
    (hnew hid.1)
  rw [hext₁.children hid.2, hwkids] at hd₂
  have hout := allocOuter_spec s₁ inner wrapper.body
  obtain ⟨K₃, hd₃, hinner⟩ := (hd₂.take (wrapper.body :: inner :: (wrapper.params.tail ++ original.id.toList))
    (by intro x; have := wrapper.params.tail_sublist.count_le x; simp [List.count_cons]; omega)).allocOuter
    (hnew (hwnew (by simp [hwkids])).1)
  obtain ⟨body, s₂, hs₂⟩ : ∃ body s₂, allocOuter s₁ inner wrapper.body = (body, s₂) := ⟨_, _, rfl⟩
  simp only [hs₂] at hout hd₃
  obtain ⟨held₂, hext₂⟩ := hout.grown
  have hsame : s₂.children inner = s₁.children inner := hext₂.children hin.new.2
  have hobody : original.body ∈ K := h.forest.closed _ h.current _ (by simp [hkids])
  have hget : s.get original.body = e.store.get original.body := hp.get _ (h.inside _ hobody)
  have hnodup := h.forest.nodup _ h.current
  rw [hkids] at hnodup
  refine ⟨K₃, inner, body, s₂, { original with
    params := wrapper.params.tail, body := body, isAsync := original.isAsync || wrapper.isAsync },
    ⟨hd₃.take _ ?_, hinner, ⟨hnew (hp.size.trans hin.new.1), ?_, ?_⟩, ?_, ?_, ?_, hout.first, ?_, ?_⟩, rfl, rfl, rfl, ?_⟩
  · intro x
    simp [List.count_cons]
    omega
  · exact hnew ((hp.size.trans hext₁.size).trans hout.new.1)
  · intro c hc
    exact hnew (hwnew (by simp [hwkids, List.mem_of_mem_tail hc])).1
  · exact fun c hc => hsame ▸ hin.params c hc
  · exact fun hb => hsame ▸ hin.block (hget ▸ hb)
  · intro hb
    rw [hsame]
    refine hin.expression (hget ▸ hb) ((h.inside _ hobody).trans_le hp.size) fun hmem => ?_
    exact List.disjoint_of_nodup_append hnodup (List.mem_append_right _ hmem) (List.mem_singleton_self _)
  · intro c hc
    rcases hout.statements c hc with rfl | hc | hc
    · exact hnew (hp.size.trans hin.new.1)
    · have hwbody := hwnew (x := wrapper.body) (by simp [hwkids])
      rw [hext₁.children hwbody.2] at hc
      exact hnew (hp.tops.forest.closed _ hwbody c hc).1
    · exact hnew ((hp.size.trans hext₁.size).trans hc)
  · exact hext₂.below_emptied (hin.below _ ((h.inside _ h.current).trans_le hp.size))
  · simp only [wrapFunction_eq, hs₁, hs₂, rewired]

namespace Prepared
variable {s' : Store} {changed : Func NodeId}

/-- The editor after the wrapped function is written has these slots. -/
theorem children_rewired (h : Sound e K) (ho : e.node.func? = some original)
    (hp : Prepared e s' K K' original wrapper inner body) (hid : changed.id = original.id)
    (hparams : changed.params = wrapper.params.tail) (hbody : changed.body = body) :
    (rewired e s' changed body inner).store.children
      = Function.update s'.children e.current (original.id.toList ++ wrapper.params.tail ++ [body]) := by
  have hget : s'.get e.current = e.node := hp.draft.grown.get _ (h.inside _ h.current)
  have hcur : e.current.index < s'.size := (h.inside _ h.current).trans_le hp.draft.grown.size
  rw [rewired, Store.children_set hcur, hget, Node.children_withFunc ho, hid, hparams, hbody]

theorem links_rewired (c : NodeId) : (rewired e s' changed body inner).parents.get? c =
    if c ∈ (rewired e s' changed body inner).store.children inner then some inner
    else if c ∈ (rewired e s' changed body inner).store.children body then some body
    else if c ∈ (rewired e s' changed body inner).store.children e.current then some e.current
    else e.parents.get? c := by
  simp only [rewired, Parents.linkChildren, Parents.get?_linkAll]
  rfl

section After
variable (hp : Prepared e s' K K' original wrapper inner body) {kids : NodeId → List NodeId}
  (hkids : kids = Function.update s'.children e.current (original.id.toList ++ wrapper.params.tail ++ [body]))
include hp hkids

theorem spare : Spare kids K' e.current [] := by
  have hw : Spare (Function.update s'.children e.current []) K' e.current
    ((original.id.toList ++ wrapper.params.tail ++ [body]) ++ []) := by simpa using hp.draft.spare
  have hw' := hw.write hp.draft.spare.nodup fun c hc => .inr hc
  rwa [Function.update_idem, ← hkids] at hw'

theorem mem_target {c : NodeId} (hc : c ∈ kids e.current) (hK : c ∈ K) : c ∈ original.id.toList := by
  rw [hkids, Function.update_self] at hc
  simp only [List.mem_append, List.mem_singleton] at hc
  rcases hc with (hc | hc) | rfl
  · exact hc
  · exact absurd hK (hp.added.2.2 c hc)
  · exact absurd hK hp.added.2.1

theorem children_of_mem (h : Sound e K) {p : NodeId} (hpK : p ∈ K) (hne : p ≠ e.current) : kids p = e.store.children p := by
  rw [hkids, Function.update_of_ne hne, hp.draft.grown.children (h.inside p hpK)]

/-- Slots of other nodes hold nodes that they held before, or that the function held, or new ones. -/
theorem mem_other (h : Sound e K) {p c : NodeId} (hne : p ≠ e.current) (hc : c ∈ kids p) :
    c ∈ e.store.children p ∨ (p ∉ K ∧ c ∈ e.store.children e.current) ∨ c ∈ e.store.added s' := by
  rw [hkids, Function.update_of_ne hne] at hc
  rcases Nat.lt_or_ge p.index e.store.size with hlt | hge
  · exact .inl (hp.draft.grown.children hlt ▸ hc)
  · refine .inr ((hp.draft.grown.holds p hge c hc).imp_left fun hc => ⟨fun hK => ?_, hc⟩)
    exact Nat.not_lt.2 hge (h.inside p hK)

end After

theorem sound_rewired (h : Sound e K) (ho : e.node.func? = some original)
    (hp : Prepared e s' K K' original wrapper inner body)
    (hkids : (rewired e s' changed body inner).store.children
      = Function.update s'.children e.current (original.id.toList ++ wrapper.params.tail ++ [body])) :
    Sound (rewired e s' changed body inner) K' := by
  have hsize : (rewired e s' changed body inner).store.size = s'.size := Store.size_set
  have hroot : (rewired e s' changed body inner).store.root = e.store.root := hp.draft.grown.root
  have hforest := (hp.spare hkids).forest
  have hbK : body ∈ K' := (hp.draft.spare.loose body (by simp)).1
  have hcK : e.current ∈ K' := hp.draft.known h.current
  -- nothing holds the root: neither what was there, nor the function, nor what is new
  have htop : ∀ p, e.store.root ∉ (rewired e s' changed body inner).store.children p := by
    intro p hc
    by_cases hpc : p = e.current
    · refine h.top e.current ?_
      have hmem := hp.mem_target hkids (hpc ▸ hc) h.root
      rw [Store.children, ← node, Node.children_of_func ho]
      simp [hmem]
    · rcases hp.mem_other hkids h hpc hc with hc | ⟨-, hc⟩ | hc
      · exact h.top p hc
      · exact h.top e.current hc
      · exact Nat.not_lt.2 hc.1 (h.inside _ h.root)
  refine ⟨fun p c hc => ?_, hsize ▸ hp.draft.inside, hforest, hroot ▸ hp.draft.known h.root, hroot ▸ htop, fun c p hl => ?_,
    ?_, hcK⟩
  · rw [hsize]
    by_cases hpc : p = e.current
    · exact hp.draft.inside c (hforest.closed _ hcK c (hpc ▸ hc))
    · rcases hp.mem_other hkids h hpc hc with hc | ⟨-, hc⟩ | hc
      · exact (h.arena p c hc).trans_le hp.draft.grown.size
      · exact (h.arena _ c hc).trans_le hp.draft.grown.size
      · exact hc.2
  · rw [links_rewired] at hl
    split at hl
    next hc =>
      cases hl
      exact ⟨hforest.closed _ hp.place c hc, hp.place⟩
    next =>
      split at hl
      next hc =>
        cases hl
        exact ⟨hforest.closed _ hbK c hc, hbK⟩
      next =>
        split at hl
        next hc =>
          cases hl
          exact ⟨hforest.closed _ hcK c hc, hcK⟩
        next => exact ⟨hp.draft.known (h.links c p hl).1, hp.draft.known (h.links c p hl).2⟩
  · rw [links_rewired, hroot, if_neg (htop _), if_neg (htop _), if_neg (htop _)]
    exact h.unlinked

theorem wrapped (h : Sound e K) (ho : e.node.func? = some original)
    (hp : Prepared e s' K K' original wrapper inner body) (hid : changed.id = original.id)
    (hparams : changed.params = wrapper.params.tail) (hbody : changed.body = body) :
    Wrapped e (rewired e s' changed body inner) K K' original inner body := by
  have hkids := children_rewired h ho hp hid hparams hbody
  have hbK : body ∈ K' := (hp.draft.spare.loose body (by simp)).1
  have hine : inner ≠ e.current := fun he => hp.added.1 (he ▸ h.current)
  have hbne : body ≠ e.current := fun he => hp.added.2.1 (he ▸ h.current)
  have hother {p : NodeId} (hne : p ≠ e.current) : (rewired e s' changed body inner).store.children p = s'.children p := by
    rw [hkids, Function.update_of_ne hne]
  -- the way to the old body leads through the new body and the inner function
  have hinside : Below (rewired e s' changed body inner).store.children e.current inner := by
    refine (Below.kid (c := body) ?_).tail ?_
    · simp [hkids]
    · rw [hother hbne]
      exact hp.first
  have hbelow : Below (rewired e s' changed body inner).store.children e.current original.body := by
    refine hinside.trans (hp.below.mono fun q c hc => ?_)
    by_cases hq : q = e.current
    · simp [hq] at hc
    · rw [Function.update_of_ne hq] at hc
      rwa [hother hq]
  have hname : ∀ c ∈ original.id.toList, c ∈ (rewired e s' changed body inner).store.children e.current := by
    intro c hc
    rw [hkids, Function.update_self]
    simp [hc]
  refine ⟨hp.sound_rewired h ho hkids, hp.draft.known, hp.draft.grown.root, rfl,
    fun p hpK hne => hp.children_of_mem hkids h hpK hne, fun c hc hK => hp.mem_target hkids hc hK, hname,
    fun p hpK' hpK c hc hK => ?_, hother hine ▸ hp.params, hother hine ▸ hp.block, hother hine ▸ hp.expression,
    hother hbne ▸ hp.statements, hinside, hbelow, ⟨hp.place, hbK⟩, links_rewired⟩
  have hpnew : e.store.size ≤ p.index := ((hp.draft.new p hpK').resolve_left hpK).1
  rcases hp.mem_other hkids h (by rintro rfl; exact hpK h.current) hc with hc | ⟨-, hc⟩ | hc
  · simp [Store.children_of_size_le hpnew] at hc
  · exact hc
  · exact absurd (h.inside c hK) (Nat.not_lt.2 hc.1)

end Prepared

/-- What a wrap that succeeds comes to. -/
theorem wrap_ok (he : e.wrap code = .ok e') : ∃ original id s wrapper name, e.node.func? = some original ∧
    e.insertExpression code = .ok (id, s) ∧ s.get id = .arrowFunctionExpression wrapper ∧
      e' = ({ e with store := s } : Editor).wrapFunction e.current original wrapper name := by
  unfold wrap at he
  split at he
  next => simp [obstacle] at he
  next original ho =>
    obtain ⟨⟨id, s⟩, hread, he⟩ := bind_eq_ok he
    dsimp only at he
    split at he
    next wrapper hw =>
      split at he
      next => simp [obstacle] at he
      next =>
        split at he
        next name _ =>
          cases he
          exact ⟨original, id, s, wrapper, name, ho, hread, hw, rfl⟩
        next => simp [obstacle] at he
    next => simp [obstacle] at he

theorem wrap_wrapped (h : Sound e K) (he : e.wrap code = .ok e') :
    ∃ original K' inner body, e.node.func? = some original ∧ Wrapped e e' K K' original inner body := by
  obtain ⟨original, id, s, wrapper, name, ho, hread, hw, rfl⟩ := wrap_ok he
  obtain ⟨K', inner, body, s', changed, hprep, hid, hparams, hbody, heq⟩ :=
    wrapFunction_prepared name h ho (insertExpression_planted hread) hw
  rw [heq]
  exact ⟨original, K', inner, body, ho, hprep.wrapped h ho hid hparams hbody⟩

namespace Wrapped

/-- The root reaches a known node only if it did before, and a new one only if it reached the function. -/
theorem reach (h : Sound e K) (hw : Wrapped e e' K K' original inner body) (ho : e.node.func? = some original)
    {y : NodeId} (hy : Below e'.store.children e.store.root y) :
    (y ∈ K → Below e.store.children e.store.root y) ∧ (y ∉ K → Below e.store.children e.store.root e.current) := by
  have hname {c : NodeId} (hc : c ∈ original.id.toList) : c ∈ e.store.children e.current := by
    rw [Store.children, ← node, Node.children_of_func ho]
    simp [hc]
  induction hy with
  | refl => exact ⟨fun _ => .refl _, fun hn => absurd h.root hn⟩
  | @tail p c hp hc ih =>
    have hpK' : p ∈ K' := hw.sound.forest.below_mem (hw.known h.root) hp
    by_cases hpK : p ∈ K
    · by_cases hpc : p = e.current
      · refine ⟨fun hcK => (ih.1 hpK).tail ?_, fun _ => hpc ▸ ih.1 hpK⟩
        exact hpc ▸ hname (hw.target c (hpc ▸ hc) hcK)
      · rw [hw.others p hpK hpc] at hc
        exact ⟨fun _ => (ih.1 hpK).tail hc, fun hcK => absurd (h.forest.closed p hpK c hc) hcK⟩
    · exact ⟨fun hcK => (ih.2 hpK).tail (hw.new p hpK' hpK c hc hcK), fun _ => ih.2 hpK⟩

/-- The root reaches all that it reached. -/
theorem reach_known (h : Sound e K) (hw : Wrapped e e' K K' original inner body) (ho : e.node.func? = some original)
    {x : NodeId} (hx : Below e.store.children e.store.root x) : Below e'.store.children e.store.root x := by
  induction hx with
  | refl => exact .refl _
  | @tail p c hp hc ih =>
    by_cases hpc : p = e.current
    · -- what the function held it still holds, or the inner function does, and that is inside
      rw [hpc] at ih hc
      rw [Store.children, ← node, Node.children_of_func ho] at hc
      simp only [List.mem_append, List.mem_singleton] at hc
      rcases hc with (hc | hc) | rfl
      · exact ih.tail (hw.name c hc)
      · exact ih.trans (hw.inside.tail (hw.params c hc))
      · exact ih.trans hw.below
    · rw [← hw.others p (h.forest.below_mem h.root hp) hpc] at hc
      exact ih.tail hc

/-- Unless the root reaches the function and its body is an expression whose place is recorded, a wrap leaves no link
behind. -/
theorem faithful (h : Sound e K) (hw : Wrapped e e' K K' original inner body) (ho : e.node.func? = some original)
    (hs : (e.store.get original.body).isBlock = false → (e.parents.get? original.body).isSome = true →
      ¬ Below e.store.children e.store.root e.current) : Faithful e e' K := by
  refine ⟨hw.root, fun x hx hb => (hw.reach h ho hb).1 hx, fun p hp c hc q hq => ?_⟩
  have hpK' : p ∈ K' := hw.sound.forest.below_mem (hw.known h.root) hp
  have here {x : NodeId} (hx : x ∈ K') (hcx : c ∈ e'.store.children x) : x = p :=
    hw.sound.forest.holder x hx p hpK' c hcx hc
  rw [hw.links] at hq
  split at hq
  next hcx => exact .inl (Option.some.inj hq ▸ here hw.places.1 hcx)
  next hinner =>
    split at hq
    next hcx => exact .inl (Option.some.inj hq ▸ here hw.places.2 hcx)
    next =>
      split at hq
      next hcx => exact .inl (Option.some.inj hq ▸ here (hw.known h.current) hcx)
      next hcur =>
        have hcK : c ∈ K := (h.links c q hq).1
        by_cases hpK : p ∈ K
        · have hpc : p ≠ e.current := by
            rintro rfl
            exact hcur hc
          exact .inr ⟨hpK, hw.others p hpK hpc ▸ hc, hq⟩
        -- a new node took `c` over from the function, so `c` has a new link unless it is the expression
        · have hmem := hw.new p hpK' hpK c hc hcK
          rw [Store.children, ← node, Node.children_of_func ho] at hmem
          simp only [List.mem_append, List.mem_singleton] at hmem
          rcases hmem with (hmem | hmem) | rfl
          · exact absurd (hw.name c hmem) hcur
          · exact absurd (hw.params c hmem) hinner
          · cases hb : (e.store.get original.body).isBlock with
            | true => exact absurd (hw.block hb) hinner
            | false => exact absurd ((hw.reach h ho hp).2 hpK) (hs hb (by simp [hq]))

/-- The link of an expression body that names the function still does so. -/
theorem stale (h : Sound e K) (hw : Wrapped e e' K K' original inner body) (ho : e.node.func? = some original)
    (hb : (e.store.get original.body).isBlock = false) (hl : e.parents.get? original.body = some e.current) :
    e'.parents.get? original.body = some e.current ∧ original.body ∉ e'.store.children e.current := by
  have hold : e.store.children e.current = original.id.toList ++ original.params ++ [original.body] :=
    Node.children_of_func ho
  have hK : original.body ∈ K := h.forest.closed _ h.current _ (by simp [hold])
  have hnot : original.body ∉ e'.store.children e.current := by
    intro hc
    have hn := h.forest.nodup _ h.current
    rw [hold] at hn
    exact List.disjoint_of_nodup_append hn (List.mem_append_left _ (hw.target _ hc hK)) (List.mem_singleton_self _)
  rw [hw.links, if_neg (hw.expression hb), if_neg fun hc => hw.statements _ hc hK, if_neg hnot]
  exact ⟨hl, hnot⟩

end Wrapped
end Editor
end Graft
