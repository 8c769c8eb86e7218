import Graft.Proofs.Print.Skeleton
/-!
# Whose alternate an `else` is

A printed statement reads back as the outline of the guarded tree and as nothing else: an `else` belongs to the condition whose
alternate it prints, and all that is added are the blocks around consequents that would take it (`Tree.printed_outline`). Which
condition would take it is what `Tree.withElse` says.
-/

namespace Graft

open Lexical Grammar

namespace Tree
variable {t u : Tree} {σ : Slot}

/-! ## Trees -/

/-- All forms of a part of a statement that are read. -/
structure Readable (t : Tree) : Prop where
  statement : t.node.isStatement = true → t.ReadsBack
  handler : Slot.handler.allows t.node = true → t.ReadsHandler
  switchCase : Slot.switchCase.allows t.node = true → t.ReadsCase

theorem Spelt.isStatement (h : Spelt (fun _ => False) .statement t) : t.node.isStatement = true := by
  obtain ⟨n⟩ := t
  have ha := h.allows
  cases n with
  | verbatim text => exact h.spelt.elim
  | _ => first | rfl | cases ha

section Nodes
variable {n : Node Tree} (h : Spelt (fun _ => False) σ (.mk n)) (ih : ∀ p ∈ n.places σ, p.1.Readable)
include h ih

theorem Spelt.readsPlace {u : Tree} (hu : (u, Slot.statement) ∈ n.places σ) : u.ReadsBack :=
  (ih _ hu).statement (h.places _ hu).isStatement

theorem Spelt.readsBlock {u : Tree} (hu : (u, Slot.block) ∈ n.places σ) : ReadsBlock u := by
  have hb : u.node.isBlock = true := (h.places _ hu).allows
  refine ⟨hb, (ih _ hu).statement ?_⟩
  cases hn : u.node <;> rw [hn] at hb <;> first | rfl | cases hb

theorem Spelt.readsStatement (hs : n.isStatement = true) : ReadsBack (.mk n) := by
  have kids := h.wellFormed.places
  have statement {u : Tree} (hu : (u, Slot.statement) ∈ n.places σ) : u.ReadsBack := h.readsPlace ih hu
  have block {u : Tree} (hu : (u, Slot.block) ∈ n.places σ) : ReadsBlock u := h.readsBlock ih hu
  have paired {u : Tree} (hu : (u, Slot.expression) ∈ n.places σ) : u.PrintsPaired := (kids _ hu).2.paired
  by_cases hl : n.isLine = true
  · exact .line h hl
  cases n with
  | blockStatement body => exact .blockStatement fun t ht => statement (by simp [Node.places, ht])
  | ifStatement test consequent alternate =>
    refine .ifStatement (paired List.mem_cons_self) (statement (by simp [Node.places])) fun u hu => statement ?_
    simp [Node.places, Option.mem_def.1 hu]
  | forStatement init test update body =>
    refine .forStatement (statement (by simp [Node.places])) fun c => ?_
    have hinit : Paired (initializer init c) := (clear_initializer kids rfl).paired
    have htest : Paired (laterClause test c) :=
      paired_laterClause kids fun t ht => by simp [Node.children, Node.fields, Option.mem_def.1 ht]
    have hupdate : Paired (laterClause update c) :=
      paired_laterClause kids fun t ht => by simp [Node.children, Node.fields, Option.mem_def.1 ht]
    exact .append (.append (.append (.append hinit (paired_fixed rfl)) htest) (paired_fixed rfl)) hupdate
  | forInStatement left right body =>
    exact .forInStatement (statement (by simp [Node.places])) (fun c => (clear_clause kids List.mem_cons_self (.inr rfl)).paired)
      (paired (by simp [Node.places]))
  | forOfStatement left right body isAwait =>
    exact .forOfStatement (statement (by simp [Node.places])) (fun c => (clear_clause kids List.mem_cons_self (.inr rfl)).paired)
      (paired (by simp [Node.places]))
  | whileStatement test body =>
    exact .whileStatement (statement (by simp [Node.places])) (paired List.mem_cons_self)
  | doWhileStatement body test =>
    exact .doWhileStatement (statement List.mem_cons_self) (paired (by simp [Node.places]))
  | tryStatement tried handler finalizer =>
    refine .tryStatement (block List.mem_cons_self) (fun t ht => ?_) (fun t ht => block ?_) h.complete
    · have hplace : (t, Slot.handler) ∈ Node.places σ (.tryStatement tried handler finalizer) := by
        simp [Node.places, Option.mem_def.1 ht]
      exact ⟨(h.places _ hplace).allows, (ih _ hplace).handler (h.places _ hplace).allows⟩
    · simp [Node.places, Option.mem_def.1 ht]
  | switchStatement discriminant cases =>
    refine .switchStatement (paired List.mem_cons_self) fun s hcase => ?_
    have hplace : (s, Slot.switchCase) ∈ Node.places σ (.switchStatement discriminant cases) := by simp [Node.places, hcase]
    exact ⟨(h.places _ hplace).allows, (ih _ hplace).switchCase (h.places _ hplace).allows⟩
  | labeledStatement label body =>
    exact .labeledStatement (h.place List.mem_cons_self) (statement (by simp [Node.places]))
  | functionDeclaration f =>
    refine .functionDeclaration (fun t ht => h.place (τ := .name) ?_) (fun c => (clear_listed (clear_func kids rfl).2).paired)
      (block (by simp [Node.places, Node.funcPlaces]))
    simp [Node.places, Node.funcPlaces, ht]
  | classDeclaration k =>
    refine .classDeclaration (fun t ht => h.place (τ := .name) ?_) (fun t ht => h.place (τ := .expression) ?_)
      (kids (k.body, .classBody) ?_).1
    · simp [Node.places, Node.classPlaces, ht]
    · simp [Node.places, Node.classPlaces, Option.mem_def.1 ht]
    · simp [Node.places, Node.classPlaces]
  | _ => first | exact absurd rfl hl | cases hs

theorem Spelt.readsHandler (ha : Slot.handler.allows n = true) : ReadsHandler (.mk n) := by
  cases n with
  | catchClause param body =>
    refine Tree.readsHandler (fun t ht => ?_) (h.readsBlock ih (by simp [Node.places]))
    exact (h.wellFormed.places (t, .pattern) (by simp [Node.places, Option.mem_def.1 ht])).2.paired
  | _ => cases ha

theorem Spelt.readsCase (ha : Slot.switchCase.allows n = true) : ReadsCase (.mk n) := by
  cases n with
  | switchCase test consequent =>
    refine Tree.readsCase (fun t ht => ?_) fun t ht => h.readsPlace ih (by simp [Node.places, ht])
    have hplace : (t, Slot.expression) ∈ Node.places σ (.switchCase test consequent) := by
      simp [Node.places, Option.mem_def.1 ht]
    have ht := h.places _ hplace
    exact ⟨(h.wellFormed.places _ hplace).2.paired, ht.printsInLine (isPassed_of_allows (.inl rfl) ht.allows) (by simp) (by simp)⟩
  | _ => cases ha

end Nodes

theorem Spelt.readable (h : Spelt (fun _ => False) σ t) : t.Readable := by
  induction h with
  | @mk σ n ha hs hcomplete hlinked hbelow ih =>
    have h : Spelt (fun _ => False) σ (.mk n) := .mk ha hs hcomplete hlinked hbelow
    exact ⟨h.readsStatement ih, h.readsHandler ih, h.readsCase ih⟩

/-! ## What a bare consequent takes -/

/-- The statement with an alternate for the condition in it that is open at its end, the innermost one. -/
def withElse : Tree → Tree → Tree
  | .mk (.ifStatement test consequent none), u =>
    if hasDanglingIf consequent then .mk (.ifStatement test (withElse consequent u) none)
    else .mk (.ifStatement test consequent (some u))
  | .mk (.ifStatement test consequent (some alternate)), u => .mk (.ifStatement test consequent (some (withElse alternate u)))
  | .mk (.forStatement init test update body), u => .mk (.forStatement init test update (withElse body u))
  | .mk (.forInStatement left right body), u => .mk (.forInStatement left right (withElse body u))
  | .mk (.forOfStatement left right body isAwait), u => .mk (.forOfStatement left right (withElse body u) isAwait)
  | .mk (.whileStatement test body), u => .mk (.whileStatement test (withElse body u))
  | .mk (.labeledStatement label body), u => .mk (.labeledStatement label (withElse body u))
  | t, _ => t

/-- An `else` behind the statement is printed as the one of that condition. -/
theorem stated_withElse (t u : Tree) (h : hasDanglingIf t = true) (c : PrintContext) :
    stated (withElse t u) c = stated t c ++ "else" :: stated u c := by
  fun_induction withElse t u with
  | case1 test consequent u hd ih => rw [stated_ifStatement, ih hd, stated_ifStatement]; simp
  | case2 test consequent u hd =>
    rw [stated_ifElseStatement, stated_ifStatement, consequentTokens, if_neg hd]
    simp
  | case3 test consequent alternate u ih => rw [stated_ifElseStatement, ih h, stated_ifElseStatement]; simp
  | case4 init test update body u ih => rw [stated_forStatement, ih h, stated_forStatement]; simp
  | case5 left right body u ih => rw [stated_forInStatement, ih h, stated_forInStatement]; simp
  | case6 left right body isAwait u ih => rw [stated_forOfStatement, ih h, stated_forOfStatement]; simp
  | case7 test body u ih => rw [stated_whileStatement, ih h, stated_whileStatement]; simp
  | case8 label body u ih => rw [stated_labeledStatement, ih h, stated_labeledStatement]; simp
  | case9 t u h1 h2 h3 h4 h5 h6 h7 =>
    unfold hasDanglingIf at h
    split at h
    · exact (h1 _ _ rfl).elim
    · exact (h2 _ _ _ rfl).elim
    · exact (h3 _ _ _ _ rfl).elim
    · exact (h4 _ _ _ rfl).elim
    · exact (h5 _ _ _ _ rfl).elim
    · exact (h6 _ _ rfl).elim
    · exact (h7 _ _ rfl).elim
    · cases h

/-- A statement in which another statement takes the place of one. -/
theorem Spelt.exchange {kept : String → Prop} {n n' : Node Tree} (h : Spelt kept .statement (.mk n))
    (ha : Slot.statement.allows n' = true) (hs : n'.IsSpelt kept .statement) (hc : n'.isComplete = true) (hl : n'.chained = [])
    {v : Tree} (hv : Spelt kept .statement v) (hp : ∀ p ∈ n'.places .statement, p ∈ n.places .statement ∨ p = (v, .statement)) :
    Spelt kept .statement (.mk n') := by
  refine .mk ha hs hc (by simp [hl]) fun p hp' => ?_
  rcases hp p hp' with hp | rfl
  · exact h.places p hp
  · exact hv

theorem Spelt.withElse {kept : String → Prop} (h : Spelt kept .statement t) (hu : Spelt kept .statement u) :
    Spelt kept .statement (t.withElse u) := by
  fun_induction Tree.withElse t u with
  | case1 test consequent u hd ih =>
    exact h.exchange rfl trivial rfl rfl (ih (h.place (by simp [Node.places])) hu) (by simp [Node.places])
  | case2 test consequent u hd => exact h.exchange rfl trivial rfl rfl hu (by simp [Node.places, Node.placed])
  | case3 test consequent alternate u ih =>
    exact h.exchange rfl trivial rfl rfl (ih (h.place (by simp [Node.places])) hu) (by simp [Node.places, Node.placed])
  | case4 init test update body u ih =>
    exact h.exchange rfl trivial rfl rfl (ih (h.place (by simp [Node.places])) hu) (by grind [Node.places])
  | case5 left right body u ih | case6 left right body _ u ih | case7 left body u ih | case8 left body u ih =>
    exact h.exchange rfl trivial rfl rfl (ih (h.place (by simp [Node.places])) hu) (by simp [Node.places])
  | case9 t u => exact h

/-- A printed statement has one reading, the outline of the guarded tree, with each alternate where it was. A consequent that is
guarded would have taken the `else` into itself. -/
theorem printed_outline :
    (∀ (t : Tree) (c : PrintContext) (rest : List String), Spelt (fun _ => False) .statement t → MayFollow t rest →
      ∀ o us, Statement (stated t c ++ rest) o us ↔ o = outline (guarded t) c ∧ us = rest) ∧
    ∀ (t u : Tree) (c : PrintContext) (rest : List String), Spelt (fun _ => False) .statement t →
      Spelt (fun _ => False) .statement u → hasDanglingIf t = true → MayFollow (withElse t u) rest →
      ∀ o us, Statement (stated t c ++ "else" :: (stated u c ++ rest)) o us ↔ o = outline (guarded (withElse t u)) c ∧ us = rest := by
  have reading (t : Tree) (c : PrintContext) (rest : List String) (h : Spelt (fun _ => False) .statement t)
      (hrest : MayFollow t rest) (o : Outline) (us : List String) :
      Statement (stated t c ++ rest) o us ↔ o = outline (guarded t) c ∧ us = rest := by
    have hread := h.readable.statement h.isStatement c rest hrest
    refine ⟨fun h' => ?_, ?_⟩
    · obtain ⟨ho, hus⟩ := hread.determined _ _ h'
      exact ⟨ho.symm, hus.symm⟩
    · rintro ⟨rfl, rfl⟩
      exact hread
  refine ⟨reading, fun t u c rest ht hu hd hrest => ?_⟩
  have htaken := reading (withElse t u) c rest (ht.withElse hu) hrest
  rwa [stated_withElse t u hd, List.append_assoc, List.cons_append] at htaken

/-- A loop over a condition that is open at its end. -/
def openLoop : Tree :=
  .mk (.whileStatement (.mk (.identifier "b")) (.mk (.ifStatement (.mk (.identifier "c"))
    (.mk (.expressionStatement (.mk (.identifier "d")))) none)))

def alternateLine : Tree := .mk (.expressionStatement (.mk (.identifier "e")))

/-- The same loop in front of an `else`. -/
def openConsequent : Tree := .mk (.ifStatement (.mk (.identifier "a")) openLoop (some alternateLine))

example : openConsequent.print = "if (a) \x7b\n  while (b) if (c) d;\n\x7d else e;" := by decide +kernel

theorem openConsequent_outline :
    Spelt (fun _ => False) .statement openConsequent ∧
    Statement (stated openConsequent {}) (.branch ["a"] (.block [.loop ["while"] ["b"] (.branch ["c"] (.line ["d"]) none)])
      (some (.line ["e"]))) [] ∧
    Statement (stated openLoop {} ++ "else" :: stated alternateLine {}) (.loop ["while"] ["b"] (.branch ["c"] (.line ["d"])
      (some (.line ["e"])))) [] := by
  have hword (name : String) (hne : name.toList ≠ [] := by decide) (h : name.toList.all Unicode.isAsciiLetter = true := by decide)
      (hr : name ∉ reservedWords := by decide) : Node.IsWord .expression name := Node.isWord_letters hne h hr
  have hloop : Spelt (fun _ => False) .statement openLoop := by
    simp [openLoop, Spelt.iff_mk, Slot.allows, Node.places, Node.placed, Node.IsSpelt, Node.isComplete, Node.chained,
      Node.isStatement, Node.isExpression, hword "b", hword "c", hword "d"]
  have halternate : Spelt (fun _ => False) .statement alternateLine := by
    simp [alternateLine, Spelt.iff_mk, Slot.allows, Node.places, Node.IsSpelt, Node.isComplete, Node.chained,
      Node.isStatement, Node.isExpression, hword "e"]
  have hconsequent : Spelt (fun _ => False) .statement openConsequent := by
    have ha : Spelt (fun _ => False) .expression (.mk (.identifier "a")) := .mk rfl (hword "a") rfl (List.forall_mem_nil _) (List.forall_mem_nil _)
    refine .mk rfl trivial rfl (List.forall_mem_nil _) ?_
    simp [Node.places, Node.placed, ha, hloop, halternate]
  have hend (t : Tree) : MayFollow t [] := ⟨fun _ => by simp, fun _ => by simp⟩
  have hread := (printed_outline.1 openConsequent {} [] hconsequent (hend _) _ _).2 ⟨rfl, rfl⟩
  have htaken := (printed_outline.2 openLoop alternateLine {} [] hloop halternate rfl (hend _) _ _).2 ⟨rfl, rfl⟩
  rw [List.append_nil] at hread htaken
  exact ⟨hconsequent, hread, htaken⟩

end Tree
end Graft
