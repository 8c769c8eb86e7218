import Graft.Proofs.Source.Expressions
import Graft.Source.Program
/-!
# What is read fits

Declarations and statements fit their slots, by induction on the steps the readers of every goal fit, and so every text that can
be read gives a tree in which each node stands where the grammar allows it and closes off the chains below it
(`readProgram_fills`, `readStatements_fills`, `readExpression_fills`).
-/

namespace Graft.Source

open Read Graft.Tree

section Declarations
variable {read : Readers} {fuel : Nat} {mode : Mode} (hread : FitReaders read)
include hread

/-! ## Declarations -/

omit hread in
theorem verbatim_fits {body : Read Unit} : Gives (verbatim body) (Tree.Fills .statement) :=
  .after fun _ => .after fun _ => .after fun text => .pure (fits_verbatim text rfl)

theorem expressionStatement_fits : Gives (expressionStatement read fuel) (Tree.Fills .statement) :=
  .bind (expressions_fits hread) fun _ he => .after fun _ => .pure (.node rfl rfl (by grind [Node.places]))

theorem bindingTarget_fits : Gives (bindingTarget read fuel) (Tree.Fills .pattern) := by
  refine .after fun token => ?_
  split
  next => exact bindingName_fits fun _ => rfl
  next => exact .bind (array_fits hread) fun _ hr => .require hr.pattern
  next => exact .bind (object_fits hread) fun _ hr => .require hr.pattern
  next => exact .failure

omit hread in
/-- The value of a declarator, if it has one, is an expression. -/
theorem fits_declarator {id : Tree} {init : Option Tree} {σ : Slot} (hid : Tree.Fills .pattern id)
    (hinit : ∀ t ∈ init, Tree.Fills .expression t) (hσ : σ.allows (Node.variableDeclarator id init) = true) :
    Tree.Fills σ (.mk (.variableDeclarator id init)) := .node hσ rfl (by grind [Node.places])

theorem initializer_fits : Gives (some <$> expressionTree read mode) fun o => ∀ t ∈ o, Tree.Fills .expression t :=
  .map ((expressionTree_fits hread).mono fun _ ht => by simpa using ht)

theorem declarator_fits : Gives (declarator read fuel mode) (Tree.Fills .declarator) :=
  .bind (bindingTarget_fits hread) fun _ hid => .after fun _ => .iteAfter fun _ =>
    .iteBind (initializer_fits hread) (.pure nofun) fun _ hinit => .pure (fits_declarator hid hinit rfl)

theorem declaratorsAfter_fits (n : Nat) {ds : List Tree} (hds : ∀ d ∈ ds, Tree.Fills .declarator d) :
    Gives (declarators.declaratorsAfter read fuel n ds) fun ds => ∀ d ∈ ds, Tree.Fills .declarator d := by
  have hreverse : ∀ d ∈ ds.reverse, Tree.Fills .declarator d := by simpa using hds
  induction n generalizing ds with
  | zero => exact .failure
  | succ n ih =>
    refine .after fun _ => .ite (.pure hreverse) (.after fun _ => .ite (.bind (declarator_fits hread) fun d hd => ?_) (.pure hreverse))
    exact ih (by simpa [hd] using hds) (by grind)

theorem declarators_fits : Gives (declarators read fuel) fun ds => ∀ d ∈ ds, Tree.Fills .declarator d :=
  .bind (declarator_fits hread) fun _ hd => declaratorsAfter_fits hread fuel (by simpa using hd)

/-- A declaration may stand as a statement and as the first clause of a loop. -/
theorem declaration_fits {kind : String} {σ : Slot} (hσ : σ = .statement ∨ σ = .clause) :
    Gives (declaration read fuel kind) (Tree.Fills σ) := by
  refine .after fun _ => .bind (declarators_fits hread) fun ds hds => .after fun _ => .pure (.node ?_ rfl ?_)
  · rcases hσ with rfl | rfl <;> rfl
  · have hslot : σ.ofDeclarator (.ofWord kind) = .declarator := by rcases hσ with rfl | rfl <;> rfl
    grind [Node.places]

theorem classDeclaration_fits {bare : Bool} : Gives (classDeclaration read fuel bare) (Tree.Fills .statement) :=
  .bind (classRest_fits hread) fun _ hc => .after fun _ => .pure (.node rfl rfl hc)

omit hread in
theorem whole_fits {bare : Bool} {body : Read Tree} (hbody : Gives body (Tree.Fills .statement)) :
    Gives (whole bare body) fun o => ∀ t ∈ o, Tree.Fills .statement t := by
  refine .after fun _ => .bind hbody fun t ht => .after fun _ => .after fun _ => .ite (.after fun _ => .pure nofun) (.pure ?_)
  simpa using ht

theorem namedDeclaration_fits {bare : Bool} :
    Gives (namedDeclaration? read fuel bare) fun o => ∀ t ∈ o, Tree.Fills .statement t := by
  have function {isAsync : Bool} : Gives (do
      return .mk (.functionDeclaration (← functionRest read fuel isAsync true bare))) (Tree.Fills .statement) :=
    .bind (functionRest_fits hread) fun _ hf => .pure (.node rfl rfl hf)
  refine .after fun _ => .ite (whole_fits (.after fun _ => function)) (.after fun _ => .after fun _ => .ite (whole_fits function) ?_)
  exact .after fun _ => .after fun _ => .ite (whole_fits (classDeclaration_fits hread)) (.pure nofun)

/-! ## Control -/

theorem optionalStatement_fits : Gives (some <$> read .statement) fun o => ∀ t ∈ o, Tree.Fills .statement t :=
  .map (hread.statement.mono fun _ ht => by simpa using ht)

theorem ifStatement_fits : Gives (ifStatement read fuel) (Tree.Fills .statement) :=
  .after fun _ => .bind (condition_fits hread) fun _ htest => .after fun _ => .bind hread.statement fun _ hyes =>
    .after fun _ => .iteBind (optionalStatement_fits hread) (.pure nofun) fun _ hno => .pure (.node rfl rfl (by grind [Node.places]))

omit hread in
/-- A loop over something has a left side that may stand there. -/
structure LoopHead.Fits (h : LoopHead) : Prop where
  left : Tree.Fills .loopTarget h.left
  right : Tree.Fills .expression h.right

structure LoopClauses.Fits (c : LoopClauses) : Prop where
  init : ∀ t ∈ c.init, Tree.Fills .clause t
  test : ∀ t ∈ c.test, Tree.Fills .expression t
  update : ∀ t ∈ c.update, Tree.Fills .expression t

theorem loopOver_fits {left : Tree} (hleft : Tree.Fills .loopTarget left) : Gives (loopOver read fuel left) LoopHead.Fits :=
  .after fun _ => .ite (.after fun _ => .after fun _ => .bind (expressions_fits hread) fun _ hr => .after fun _ =>
    .after fun _ => .pure ⟨hleft, hr⟩) (.after fun _ => .after fun _ => .bind (expressions_fits hread) fun _ hr => .after fun _ =>
    .after fun _ => .pure ⟨hleft, hr⟩)

/-- Only `var` gives a value there. -/
theorem declaringHead_fits : Gives (declaringHead read fuel) LoopHead.Fits := by
  refine .after fun token => ?_
  split
  next w =>
    refine .after fun _ => .after fun _ => .bind (bindingTarget_fits hread) fun id hid => .after fun _ => ?_
    have entered {init : Option Tree} (hinit : ∀ t ∈ init, Tree.Fills .expression t) (hvar : init.isNone = true ∨ w = "var") :
        Gives (do
          guardThat !(w = "var" && (← mayEndHere init.isNone))
          loopOver read fuel (.mk (.variableDeclaration (.ofWord w) [.mk (.variableDeclarator id init)]))) LoopHead.Fits := by
      refine .after fun _ => .after fun _ => loopOver_fits hread (.node rfl rfl ?_)
      -- only a `var` may have a value in the head of a loop
      have hd : Tree.Fills (Slot.loopTarget.ofDeclarator (.ofWord w)) (.mk (.variableDeclarator id init)) := by
        rw [Slot.ofDeclarator]
        rcases hvar with hnone | rfl
        · split
          next => exact fits_declarator hid hinit hnone
          next => exact fits_declarator hid hinit rfl
        · exact fits_declarator hid hinit rfl
      grind [Node.places]
    split
    next hw =>
      have hw : w = "var" := by simp_all
      exact .after fun _ => .iteBind (initializer_fits hread) (.pure fits_none) fun _ hinit => entered hinit (.inr hw)
    next =>
      refine .bind (.pure (P := fun b => b = false) rfl) fun b hb => ?_
      rw [hb]
      exact .bind (.pure (P := fun o => o = none) rfl) fun o ho => entered (by simp [ho]) (.inl (by simp [ho]))
  next => exact .failure

theorem assigningHead_fits : Gives (assigningHead read fuel) LoopHead.Fits :=
  .bind (operand_fits hread) fun _ hr => .bind (.require hr.target) fun _ ht => loopOver_fits hread ht.ofTarget

theorem countingHead_fits : Gives (countingHead read fuel) LoopClauses.Fits := by
  have clause (mode : Mode) : Gives (do
      if ← punct? ";" then return none
      else
        let e ← expressions read fuel mode
        punct ";"
        return some e) fun o => ∀ t ∈ o, Tree.Fills .expression t := by
    refine .after fun _ => .ite (.pure nofun) (.bind (expressions_fits hread) fun e he => .after fun _ => .pure ?_)
    simpa using he
  have last : Gives (some <$> expressions read fuel .inner) fun o => ∀ t ∈ o, Tree.Fills .expression t :=
    .map ((expressions_fits hread).mono fun _ ht => by simpa using ht)
  have declared {w : String} : Gives (some <$> declaration read fuel w) fun o => ∀ t ∈ o, Tree.Fills .clause t :=
    .map ((declaration_fits hread (.inr rfl)).mono fun _ ht => by simpa using ht)
  have assigned : Gives _ fun o => ∀ t ∈ o, Tree.Fills .clause t :=
    (clause .element).mono fun _ h t ht => (h t ht).ofExpression rfl
  have others (init : Option Tree) (hinit : ∀ t ∈ init, Tree.Fills .clause t) : Gives (do
      let clause : Read (Option Tree) := do
        if ← punct? ";" then return none
        else
          let e ← expressions read fuel .inner
          punct ";"
          return some e
      let test ← clause
      let update ← if ← isPunct ")" then pure none else some <$> expressions read fuel .inner
      punct ")"
      markupAhead
      return { init := init, test := test, update := update }) LoopClauses.Fits :=
    .bind (clause .inner) fun _ htest => .after fun _ => .iteBind (.pure nofun) last fun _ hupdate => .after fun _ =>
      .after fun _ => .pure ⟨hinit, htest, hupdate⟩
  refine .after fun token => ?_
  dsimp only
  split
  case' h_1 => refine .after fun _ => ?_
  all_goals
    refine .after fun _ => .after fun _ => .after fun _ => .after fun _ => .after fun _ => ?_
    split
    next => exact .bind declared others
    next => exact .bind assigned others

theorem loopHead_fits : Gives (loopHead read fuel) fun h => match h with
    | .inl head => head.Fits
    | .inr clauses => clauses.Fits := by
  refine .after fun _ => .ite (.map (.bind (bindingName_fits (σ := .loopTarget) fun _ => rfl) fun _ ht => loopOver_fits hread ht)) ?_
  exact .orElse (.map (declaringHead_fits hread)) (.orElse (.map (assigningHead_fits hread)) (.map (countingHead_fits hread)))

theorem forStatement_fits : Gives (forStatement read fuel) (Tree.Fills .statement) := by
  refine .after fun _ => .after fun _ => .after fun _ => .after fun _ => .bind (loopHead_fits hread) fun h hh => ?_
  split
  next head =>
    have hl := hh.left
    have hr := hh.right
    refine .bind hread.statement fun _ hb => .ite ?_ ?_
    · exact .pure (.node rfl rfl (by grind [Node.places]))
    · exact .pure (.node rfl rfl (by grind [Node.places]))
  next clauses =>
    refine .after fun _ => .bind hread.statement fun body hb => .pure (.node rfl rfl ?_)
    have hi := hh.init
    have ht := hh.test
    have hu := hh.update
    grind [Node.places]

theorem doBody_fits : Gives (doBody read fuel) (Tree.Fills .statement) := by
  have asExpression {s : State} : Gives (do set s; expressionStatement read fuel) (Tree.Fills .statement) :=
    .after fun _ => expressionStatement_fits hread
  refine .after fun _ => .bind hread.statement fun body hbody => ?_
  dsimp only
  split
  next => exact .after fun _ => .ite (.pure hbody) asExpression
  next => exact .after fun _ => .ite (.pure hbody) asExpression
  next => exact .after fun _ => .ite (.pure hbody) asExpression
  next => exact .pure hbody

theorem doStatement_fits : Gives (doStatement read fuel) (Tree.Fills .statement) := by
  refine .after fun _ => .bind (doBody_fits hread) fun body hb => .after fun _ => .bind (condition_fits hread) fun test ht => ?_
  have made : Gives (pure (.mk (.doWhileStatement body test))) (Tree.Fills .statement) := .pure (.node rfl rfl (by grind [Node.places]))
  exact .after fun _ => .ite (.after fun _ => made) made

theorem catchClause_fits : Gives (catchClause read fuel) (Tree.Fills .handler) := by
  have clause {param : Option Tree} (hp : ∀ t ∈ param, Tree.Fills .pattern t) : Gives (do
      let body ← block read fuel true
      return .mk (.catchClause param body)) (Tree.Fills .handler) :=
    .bind (block_fits hread) fun _ hb => .pure (.node rfl rfl (by grind [Node.places]))
  refine .after fun _ => .after fun _ => .ite ?_ (.bind (.pure (P := fun o => ∀ t ∈ o, Tree.Fills .pattern t) fits_none) fun _ => clause)
  refine .bind (bindingTarget_fits hread) fun p hp => .after fun _ => .after fun _ => .after fun _ => ?_
  exact .bind (.pure (P := fun o => ∀ t ∈ o, Tree.Fills .pattern t) (by simpa using hp)) fun _ => clause

theorem tryStatement_fits : Gives (tryStatement read fuel) (Tree.Fills .statement) := by
  have handler : Gives (some <$> catchClause read fuel) fun o => ∀ t ∈ o, Tree.Fills .handler t :=
    .map ((catchClause_fits hread).mono fun _ ht => by simpa using ht)
  have finalizer : Gives (some <$> block read fuel true) fun o => ∀ t ∈ o, Tree.Fills .block t :=
    .map ((block_fits hread).mono fun _ ht => by simpa using ht)
  refine .after fun _ => .bind (block_fits hread) fun _ hb => .after fun _ => .iteBind handler (.pure nofun) fun _ hh => ?_
  exact .after fun _ => .iteBind finalizer (.pure nofun) fun _ hf => .pure (.node rfl rfl (by grind [Node.places]))

theorem caseBody_fits : Gives (caseBody read fuel) fun ts => ∀ t ∈ ts, Tree.Fills .statement t :=
  .collect (.after fun _ => .after fun _ => .after fun _ => .ite (.pure nofun) (optionalStatement_fits hread)) fuel nofun

theorem switchStatement_fits : Gives (switchStatement read fuel) (Tree.Fills .statement) := by
  have case (test : Option Tree) (htest : ∀ t ∈ test, Tree.Fills .expression t) : Gives (do
      let body ← caseBody read fuel
      return some (Tree.mk (.switchCase test body))) fun o => ∀ t ∈ o, Tree.Fills .switchCase t := by
    refine .bind (caseBody_fits hread) fun body hb => .pure ?_
    rintro _ ⟨⟩
    exact .node rfl rfl (by grind [Node.places])
  refine .after fun _ => .bind (condition_fits hread) fun _ hd => .after fun _ => .after fun _ => ?_
  refine .bind (.collect (P := Tree.Fills .switchCase) ?_ fuel (List.forall_mem_nil _)) fun cs hcs => ?_
  · refine .after fun _ => .ite (.pure (by simp)) (.after fun _ => .ite ?_ (.after fun _ => .after fun _ => case none fits_none))
    exact .bind (expressions_fits hread) fun _ ht => .after fun _ => case (some _) (by simpa using ht)
  · exact .after fun _ => .pure (.node rfl rfl (by grind [Node.places]))

omit hread in
theorem jumpLabel_fits : Gives jumpLabel fun o => ∀ t ∈ o, Tree.Fills .name t := by
  refine .after fun _ => .after fun _ => .ite (.pure nofun) (.after fun token => ?_)
  split
  next => exact .bind (bindingName_fits fun _ => rfl) fun _ hl => .after fun _ => .pure (by simpa using hl)
  next => exact .after fun _ => .pure nofun

theorem returnStatement_fits : Gives (returnStatement read fuel) (Tree.Fills .statement) := by
  have bare : Gives (pure (.mk (.returnStatement none))) (Tree.Fills .statement) := .pure (.node rfl rfl nofun)
  refine .after fun _ => .after fun _ => .ite bare (.after fun _ => .ite bare (.bind (expressions_fits hread) fun _ he => ?_))
  exact .after fun _ => .pure (.node rfl rfl (by grind [Node.places]))

theorem nameStatement_fits {name : String} : Gives (nameStatement read fuel name) (Tree.Fills .statement) := by
  refine .after fun _ => .ite (.after fun _ => .after fun _ => .bind hread.statement fun _ hb => ?_) (expressionStatement_fits hread)
  have hname := fits_identifier name (σ := .name) rfl
  exact .pure (.node rfl rfl (by grind [Node.places]))

theorem wordStatement_fits {w : String} : Gives (wordStatement read fuel w) (Tree.Fills .statement) :=
  .after fun _ => .ite verbatim_fits (.ite (expressionStatement_fits hread) (nameStatement_fits hread))

theorem keywordStatement_fits {w : String} : Gives (keywordStatement read fuel w) (Tree.Fills .statement) := by
  have jump := jumpLabel_fits
  unfold keywordStatement
  split
  next => exact declaration_fits hread (.inl rfl)
  next => exact declaration_fits hread (.inl rfl)
  next => exact .after fun _ => .ite (declaration_fits hread (.inl rfl)) (wordStatement_fits hread)
  next => exact ifStatement_fits hread
  next => exact forStatement_fits hread
  next =>
    exact .after fun _ => .bind (condition_fits hread) fun _ ht => .after fun _ => .bind hread.statement fun _ hb =>
      .pure (.node rfl rfl (by grind [Node.places]))
  next => exact doStatement_fits hread
  next => exact tryStatement_fits hread
  next => exact switchStatement_fits hread
  next => exact .bind jump fun _ hl => .pure (.node rfl rfl (by grind [Node.places]))
  next => exact .bind jump fun _ hl => .pure (.node rfl rfl (by grind [Node.places]))
  next => exact returnStatement_fits hread
  next =>
    exact .after fun _ => .bind (expressions_fits hread) fun _ he => .after fun _ => .pure (.node rfl rfl (by grind [Node.places]))
  next => exact verbatim_fits
  next => exact verbatim_fits
  next => exact .after fun _ => .ite (expressionStatement_fits hread) verbatim_fits
  next => exact .after fun _ => .ite verbatim_fits (wordStatement_fits hread)
  next => exact wordStatement_fits hread

theorem decoratedStatement_fits : Gives (decoratedStatement read fuel) (Tree.Fills .statement) := by
  refine .orElse verbatim_fits (.orElse (.after fun _ => .bind (whole_fits (classDeclaration_fits hread)) fun _ h => ?_) ?_)
  · exact .require h
  · exact expressionStatement_fits hread

theorem statement_fits : Gives (statement read fuel) (Tree.Fills .statement) := by
  refine .after fun token => ?_
  split
  next => exact .after fun _ => .pure (.node rfl rfl nofun)
  next => exact blockOr_fits hread (fun _ hb => fits_block hb rfl) (expressionStatement_fits hread)
  next => exact nameStatement_fits hread
  next => exact decoratedStatement_fits hread
  next =>
    refine .bind (namedDeclaration_fits hread) fun o ho => ?_
    split
    next d => exact .pure (ho d rfl)
    next => exact keywordStatement_fits hread
  next => exact expressionStatement_fits hread

end Declarations

/-! ## Programs -/

/-- Induction on the steps: the readers of one level fit if those of the next do. -/
theorem readers_fit (sense : AwaitSense) (fuel : Nat) : FitReaders (readers sense fuel) := by
  induction fuel with
  | zero => exact ⟨fun _ => .failure, fun _ _ => .failure, fun _ => .failure, .failure⟩
  | succ fuel ih => exact ⟨fun _ => operation_fits ih, fun _ _ => operation_fits ih, fun _ => unary_fits ih, statement_fits ih⟩

theorem interpreterLine_fits : Gives interpreterLine fun o => ∀ t ∈ o, Tree.Fills .statement t := by
  refine .after fun cs => ?_
  split
  next =>
    refine .after fun _ => .after fun _ => .pure ?_
    rintro _ ⟨⟩
    exact fits_verbatim _ rfl
  next => exact .pure nofun

theorem program_fits (sense : AwaitSense) (fuel : Nat) :
    Gives (program sense fuel) fun ts => ∀ t ∈ ts, Tree.Fills .statement t := by
  have more : Gives (do if (← peek) = .ended then return none else some <$> readers sense fuel .statement)
      fun o => ∀ t ∈ o, Tree.Fills .statement t :=
    .after fun _ => .ite (.pure nofun) (optionalStatement_fits (readers_fit sense fuel))
  exact .bind interpreterLine_fits fun _ hl => .bind (.collect more fuel nofun) fun _ hb => .pure (by grind)

/-- A text is read in one of the three ways to take `await`. -/
theorem run_eq_some {α : Type} {reader : AwaitSense → Nat → Read α} {text : String} {a : α} (ha : run reader text = some a) :
    ∃ sense s, (reader sense (steps text.toList)).run (State.ofText true text.toList) = some (a, s) := by
  have one (sense : AwaitSense)
      (hs : ((reader sense (steps text.toList)).run (State.ofText true text.toList)).map Prod.fst = some a) :
      ∃ sense s, (reader sense (steps text.toList)).run (State.ofText true text.toList) = some (a, s) := by
    obtain ⟨⟨b, s⟩, hb, rfl⟩ := Option.map_eq_some_iff.1 hs
    exact ⟨sense, s, hb⟩
  simp only [run, Option.orElse_eq_orElse, Option.orElse_eq_or] at ha
  rcases Option.or_eq_some_iff.1 ha with ha | ⟨-, ha⟩
  · exact one .byContext ha
  · rcases Option.or_eq_some_iff.1 ha with ha | ⟨-, ha⟩
    · exact one .name ha
    · exact one .operator ha

theorem run_gives {α : Type} {reader : AwaitSense → Nat → Read α} {P : α → Prop} (h : ∀ sense fuel, Gives (reader sense fuel) P)
    {text : String} {a : α} (ha : run reader text = some a) : P a := by
  obtain ⟨sense, s, hrun⟩ := run_eq_some ha
  exact h sense _ _ _ _ hrun

theorem readStatements_fills {text : String} {body : List Tree} (h : readStatements text = .ok body) :
    ∀ t ∈ body, Tree.Fills .statement t := by
  rw [readStatements] at h
  split at h
  next hrun =>
    cases h
    exact run_gives program_fits hrun
  next => cases h

theorem readProgram_fills {text : String} {t : Tree} (h : readProgram text = .ok t) : Tree.Fills .program t := by
  rw [readProgram] at h
  cases hs : readStatements text with
  | error e =>
    rw [hs] at h
    cases h
  | ok body =>
    rw [hs] at h
    cases h
    have hbody := readStatements_fills hs
    exact .node rfl rfl (by grind [Node.places])

theorem wholeExpression_fits (sense : AwaitSense) (fuel : Nat) : Gives (wholeExpression sense fuel) (Tree.Fills .expression) :=
  .after fun _ => .bind (expressions_fits (readers_fit sense fuel)) fun _ he => .after fun _ => .after fun _ => .after fun _ => .pure he

theorem readExpression_fills {text : String} {t : Tree} (h : readExpression text = .ok t) : Tree.Fills .expression t := by
  rw [readExpression] at h
  split at h
  next hrun =>
    cases h
    exact run_gives wholeExpression_fits hrun
  next => split at h <;> cases h

theorem readStatements_fits {text : String} {body : List Tree} (h : readStatements text = .ok body) :
    ∀ t ∈ body, Tree.Fits .statement t := fun t ht => (readStatements_fills h t ht).fits

theorem readProgram_fits {text : String} {t : Tree} (h : readProgram text = .ok t) : Tree.Fits .program t :=
  (readProgram_fills h).fits

theorem readExpression_fits {text : String} {t : Tree} (h : readExpression text = .ok t) : Tree.Fits .expression t :=
  (readExpression_fills h).fits

end Graft.Source
