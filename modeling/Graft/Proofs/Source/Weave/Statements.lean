import Graft.Proofs.Source.Weave.Declarations
import Graft.Source.Statement
/-!
# Statements are woven from their leaves

A loop head is read in several ways; in each of them the text is woven up to the parenthesis that closes it.
-/

namespace Graft.Source

open Read Graft.Tree

variable {drops : List Char → List Char → Prop} {cs : List Char} {kept : List String}

instance : Looks exportDeclares := by
  have answer (next : State) : Looks (if mayEnd false next.previous = true then pure false else match next.token with
      | .word w => pure (w ≠ "in" && w ≠ "instanceof")
      | .punct p => pure (p = "*" || p = "\x7b" || p = "@")
      | _ => pure false : Read Bool) := by
    split
    · infer_instance
    · split <;> infer_instance
  unfold exportDeclares
  infer_instance

instance : Looks namedBeforeOf :=
  inferInstanceAs (Looks (isWord "let" >>= fun _ => isWord "async" >>= fun _ => second >>= fun _ => pure _))

section Statements
variable {read : Readers} {fuel : Nat} (hread : WeaveReaders drops read)
include hread

/-! ## Control -/

/-- A statement where a statement can stand. -/
theorem inner_weaves : Leads (Past drops cs kept) (read .statement) fun t => Past drops cs (kept ++ t.leaves) :=
  .here (hread.statement cs kept)

theorem ifStatement_weaves :
    Leads (Before drops cs kept) (ifStatement read fuel) fun t => Past drops cs (kept ++ t.leaves) := by
  refine .bind (.word (by decide)) fun _ => .next (condition_weaves hread) fun test => .pass fun _ => ?_
  refine .bind (inner_weaves hread) fun consequent => ?_
  have finish (alternate : Option Tree) :
      Leads (Past drops cs (kept ++ test.leaves ++ consequent.leaves ++ alternate.toList.flatMap leaves))
      (pure (Tree.mk (.ifStatement test consequent alternate))) fun t => Past drops cs (kept ++ t.leaves) :=
    .pure fun _ h => h.node (by simp [Node.children, Node.fields]) rfl rfl
  exact .bind (.mayWord (by decide)) fun _ => .ite (fun _ => .bind (.some (hread.statement _ _)) finish) fun _ => .bind .none finish

/-- What a head in front of a loop's body keeps. -/
abbrev PastHead (drops : List Char → List Char → Prop) (cs : List Char) (kept : List String) (h : LoopHead) : State → Prop :=
  Past drops cs (kept ++ h.left.leaves ++ h.right.leaves)

theorem loopOver_weaves {left : Tree} :
    Leads (Past drops cs (kept ++ left.leaves)) (loopOver read fuel left) (PastHead drops cs kept) := by
  refine .isWord fun b => ?_
  extract_lets finish
  have hfinish (u : Unit) : Leads (Past drops cs (kept ++ left.leaves)) (finish u) (PastHead drops cs kept) := by
    refine .pass fun _ => .next (expressions_weaves hread) fun right => .pass fun _ => .pass fun _ => ?_
    exact .pure fun _ h => h
  refine .ite (fun hb => .advance (fun _ h => h.1.before.keyword (h.2 hb) (by decide)) (hfinish ())) fun _ => ?_
  exact .of (fun _ h => h.1.before) (.bind (.word (by decide)) hfinish)

theorem declaringHead_weaves : Leads (Before drops cs kept) (declaringHead read fuel) (PastHead drops cs kept) := by
  refine .peek fun token => ?_
  split
  next w =>
    refine .guardBind fun hw => ?_
    have hk : isKeyword w = true := by
      simp at hw
      rcases hw with rfl | rfl | rfl <;> decide
    refine .advance (fun _ h => (h.1.keyword h.2 hk).before) (.bind (bindingTarget_weaves hread) fun id => ?_)
    have finish (init : Option Tree) : Leads (Past drops cs (kept ++ id.leaves ++ init.toList.flatMap leaves)) (do
        guardThat !(w = "var" && (← mayEndHere init.isNone))
        loopOver read fuel (.mk (.variableDeclaration (.ofWord w) [.mk (.variableDeclarator id init)])))
        (PastHead drops cs kept) := by
      refine .look fun _ => .guardBind fun _ => .of (fun s h => ?_) (loopOver_weaves hread)
      have hid : Past drops cs (kept ++ (Tree.mk (.variableDeclarator id init)).leaves) s :=
        h.node (by simp [Node.children, Node.fields]) rfl rfl
      exact hid.node (by simp [Node.children, Node.fields]) rfl rfl
    have started (assigns : Bool) : Leads (Past drops cs (kept ++ id.leaves)) (do
        let init ← if assigns then some <$> expressionTree read ⟨true, true, .value⟩ else pure none
        guardThat !(w = "var" && (← mayEndHere init.isNone))
        loopOver read fuel (.mk (.variableDeclaration (.ofWord w) [.mk (.variableDeclarator id init)])))
        (PastHead drops cs kept) :=
      .ite (fun _ => .bind (.some (expressionTree_weaves hread)) finish) fun _ => .bind .none finish
    exact .look fun _ => .ite (fun _ => .bind .passed started) fun _ => .bind (.pure fun _ h => h) started
  next => exact .failure

theorem assigningHead_weaves : Leads (Before drops cs kept) (assigningHead read fuel) (PastHead drops cs kept) :=
  .bind (operand_weaves hread) fun _ => .requireBind fun _ ht => .of (fun _ h => h.offer (.target ht)) (loopOver_weaves hread)

/-- What the clauses of a counting loop keep. -/
abbrev PastClauses (drops : List Char → List Char → Prop) (cs : List Char) (kept : List String) (c : LoopClauses) :
    State → Prop :=
  Past drops cs (kept ++ (c.init.toList ++ c.test.toList ++ c.update.toList).flatMap leaves)

theorem countingHead_weaves : Leads (Past drops cs kept) (countingHead read fuel) (PastClauses drops cs kept) := by
  unfold countingHead
  extract_lets clause finish declared
  have hclause (mode : Mode) {kept : List String} : Leads (Past drops cs kept) (clause mode)
      fun o => Past drops cs (kept ++ o.toList.flatMap leaves) := by
    refine .pass fun _ => .ite (fun _ => .none) fun _ => .next (expressions_weaves hread) fun e => ?_
    exact .pass fun _ => .pure (by simp)
  -- Behind the first clause the way is the same for every head.
  have hfinish (init : Option Tree) :
      Leads (Past drops cs (kept ++ init.toList.flatMap leaves)) (finish init) (PastClauses drops cs kept) := by
    refine .bind (hclause .inner) fun test => .look fun _ => ?_
    have closed (update : Option Tree) : Leads
        (Past drops cs (kept ++ init.toList.flatMap leaves ++ test.toList.flatMap leaves ++ update.toList.flatMap leaves)) (do
          punct ")"
          markupAhead
          return ⟨init, test, update⟩) (PastClauses drops cs kept) :=
      .pass fun _ => .pass fun _ => .pure (by simp [PastClauses])
    exact .ite (fun _ => .bind .none closed) fun _ => .bind (.some (expressions_weaves hread)) closed
  have hdeclared (declares : Bool) :
      Leads (fun s => Past drops cs kept s ∧ (declares = true → ∀ w, s.token = .word w → isKeyword w = true))
        (declared declares) (PastClauses drops cs kept) := by
    refine .look fun _ => .look fun _ => .guardBind fun _ => .peek fun token => ?_
    split
    next w =>
      refine .given (fun _ h => h.1.2 rfl w h.2) fun hk => ?_
      refine .of (P := fun s => Before drops cs kept s ∧ s.token = .word w) (fun _ h => ⟨h.1.1.before, h.2⟩) ?_
      exact .bind (.map (.mono (declaration_weaves hread hk) (by simp))) hfinish
    next => exact .of (fun _ h => h.1.1) (.bind (hclause .element) hfinish)
  refine .peek fun token => ?_
  split
  next =>
    refine .look fun next => .bind (.pure fun s h => ⟨h.1, fun _ w hw => ?_⟩) hdeclared
    rw [h.2] at hw
    cases hw
    decide
  next w _ =>
    refine .bind (.pure fun s h => ⟨h.1, fun hdeclares v hv => ?_⟩) hdeclared
    rw [h.2] at hv
    cases hv
    rw [Bool.or_eq_true, decide_eq_true_eq, decide_eq_true_eq] at hdeclares
    rcases hdeclares with rfl | rfl <;> decide
  next => exact .bind (.pure fun s h => ⟨h.1, nofun⟩) hdeclared

theorem loopHead_weaves : Leads (Past drops cs kept) (loopHead read fuel) fun h s => match h with
    | .inl h => PastHead drops cs kept h s
    | .inr c => PastClauses drops cs kept c s := by
  refine .look fun _ => .ite (fun _ => .map (.next bindingName_weaves fun _ => loopOver_weaves hread)) fun _ => ?_
  refine .orElse (.map ?_) (.orElse (.map ?_) (.map (countingHead_weaves hread)))
  · exact .here (declaringHead_weaves hread)
  · exact .here (assigningHead_weaves hread)

theorem forStatement_weaves :
    Leads (Before drops cs kept) (forStatement read fuel) fun t => Past drops cs (kept ++ t.leaves) := by
  refine .bind (.word (by decide)) fun _ => .bind (.mayWord (by decide)) fun isAwait => .pass fun _ => ?_
  refine .pass fun _ => .bind (loopHead_weaves hread) fun h => ?_
  cases h with
  | inl h =>
    refine .bind (.here (hread.statement cs _)) fun body => .ite (fun _ => ?_) fun _ => ?_
    · exact .pure fun _ h => h.node (by simp [Node.children, Node.fields]) rfl rfl
    · exact .pure fun _ h => h.node (by simp [Node.children, Node.fields]) rfl rfl
  | inr c =>
    refine .guardBind fun _ => .bind (.here (hread.statement cs _)) fun body => ?_
    exact .pure fun _ h => h.node (by simp [Node.children, Node.fields]) rfl rfl

theorem doBody_weaves : Leads (Before drops cs kept) (doBody read fuel) fun t => Past drops cs (kept ++ t.leaves) := by
  refine .get fun s h => .bind (.of (fun _ he => he ▸ h) (hread.statement cs kept)) fun body => ?_
  extract_lets asExpression
  have hexpression {P : State → Prop} : Leads P asExpression fun t => Past drops cs (kept ++ t.leaves) :=
    .set h (expressionStatement_weaves hread)
  split
  next => exact .look fun _ => .ite (fun _ => .pure fun _ h => h) fun _ => hexpression
  next => exact .look fun _ => .ite (fun _ => .pure fun _ h => h) fun _ => hexpression
  next => exact .look fun _ => .ite (fun _ => .pure fun _ h => h) fun _ => hexpression
  next => exact .pure fun _ h => h

theorem doStatement_weaves :
    Leads (Before drops cs kept) (doStatement read fuel) fun t => Past drops cs (kept ++ t.leaves) := by
  refine .bind (.word (by decide)) fun _ => .next (doBody_weaves hread) fun body => .next (.word (by decide)) fun _ => ?_
  refine .next (condition_weaves hread) fun test => .pass fun _ => ?_
  have finish : Leads (Past drops cs (kept ++ body.leaves ++ test.leaves)) (pure (Tree.mk (.doWhileStatement body test)))
      fun t => Past drops cs (kept ++ t.leaves) := .pure fun _ h => h.node (by simp [Node.children, Node.fields]) rfl rfl
  exact .ite (fun _ => .pass fun _ => finish) fun _ => finish

theorem catchClause_weaves :
    Leads (Before drops cs kept) (catchClause read fuel) fun t => Past drops cs (kept ++ t.leaves) := by
  refine .bind (.word (by decide)) fun _ => .pass fun _ => ?_
  have finish (param : Option Tree) : Leads (Past drops cs (kept ++ param.toList.flatMap leaves)) (do
      let body ← block read fuel true
      return Tree.mk (.catchClause param body)) fun t => Past drops cs (kept ++ t.leaves) :=
    .next (block_weaves hread) fun body => .pure fun _ h => h.node (by simp [Node.children, Node.fields]) rfl rfl
  refine .ite (fun _ => .next (bindingTarget_weaves hread) fun p => ?_) fun _ => .bind .none finish
  exact .pass fun _ => .pass fun _ => .pass fun _ => .bind (.pure (by simp)) finish

theorem tryStatement_weaves :
    Leads (Before drops cs kept) (tryStatement read fuel) fun t => Past drops cs (kept ++ t.leaves) := by
  refine .bind (.word (by decide)) fun _ => .next (block_weaves hread) fun body => .look fun _ => ?_
  have finish (handler finalizer : Option Tree) :
      Leads (Past drops cs (kept ++ body.leaves ++ handler.toList.flatMap leaves ++ finalizer.toList.flatMap leaves))
        (pure (Tree.mk (.tryStatement body handler finalizer))) fun t => Past drops cs (kept ++ t.leaves) :=
    .pure fun _ h => h.node (by simp [Node.children, Node.fields]) rfl rfl
  have handled (handler : Option Tree) : Leads (Past drops cs (kept ++ body.leaves ++ handler.toList.flatMap leaves)) (do
      let finalizer ← if ← word? "finally" then some <$> block read fuel true else pure none
      return Tree.mk (.tryStatement body handler finalizer)) fun t => Past drops cs (kept ++ t.leaves) :=
    .bind (.mayWord (by decide)) fun _ => .ite (fun _ => .bind (.some (block_weaves hread)) (finish handler))
      fun _ => .bind .none (finish handler)
  exact .ite (fun _ => .bind (.some (catchClause_weaves hread)) handled) fun _ => .bind .none handled

/-! ## Cases -/

theorem caseBody_weaves :
    Leads (Past drops cs kept) (caseBody read fuel) fun ts => Past drops cs (kept ++ ts.flatMap leaves) := by
  refine .collect (by simp) (fun ts => ?_) fuel
  refine .look fun _ => .look fun _ => .look fun _ => .ite (fun _ => .pure (by simp)) fun _ => .map ?_
  exact .here (.mono (hread.statement cs _) (by simp))

theorem switchStatement_weaves :
    Leads (Before drops cs kept) (switchStatement read fuel) fun t => Past drops cs (kept ++ t.leaves) := by
  refine .bind (.word (by decide)) fun _ => .next (condition_weaves hread) fun discriminant => .pass fun _ => .pass fun _ => ?_
  refine .bind (.collect (I := fun ts => Past drops cs (kept ++ discriminant.leaves ++ ts.flatMap leaves))
    (by simp) (fun ts => ?_) fuel) fun cases => ?_
  · have finish (test : Option Tree) :
        Leads (Past drops cs (kept ++ discriminant.leaves ++ ts.flatMap leaves ++ test.toList.flatMap leaves)) (do
          punct ":"
          return some (Tree.mk (.switchCase test (← caseBody read fuel))))
        fun o => Past drops cs (kept ++ discriminant.leaves ++ (ts ++ o.toList).flatMap leaves) := by
      refine .pass fun _ => .bind (caseBody_weaves hread) fun body => .pure fun s h => ?_
      have hcase : Past drops cs
          (kept ++ discriminant.leaves ++ ts.flatMap leaves ++ (Tree.mk (.switchCase test body)).leaves) s :=
        h.node (by simp [Node.children, Node.fields]) rfl rfl
      simpa using hcase
    refine .pass fun _ => .ite (fun _ => .pure (by simp)) fun _ => .ifWord (by decide) (fun _ h => h.before) ?_ ?_
    · exact .next (expressions_weaves hread) fun test => .of (by simp) (finish (some test))
    · exact .next (.word (by decide)) fun _ => .of (by simp) (finish none)
  · exact .pass fun _ => .pure fun _ h => h.node (by simp [Node.children, Node.fields]) rfl rfl

/-! ## Jumps -/

omit hread in
theorem jumpLabel_weaves {w : String} (hk : isKeyword w = true) :
    Leads (fun s => Before drops cs kept s ∧ s.token = .word w) jumpLabel
      fun o => Past drops cs (kept ++ o.toList.flatMap leaves) := by
  refine .advance (fun _ h => h.1.keyword h.2 hk) (.pass fun _ => .ite (fun _ => .none) fun _ => .peek fun token => ?_)
  split
  next => exact .of (fun _ h => h.1.before) (.bind bindingName_weaves fun l => .pass fun _ => .pure (by simp))
  next => exact .of (fun _ h => h.1) (.pass fun _ => .none)

theorem returnStatement_weaves :
    Leads (Before drops cs kept) (returnStatement read fuel) fun t => Past drops cs (kept ++ t.leaves) := by
  refine .bind (.word (by decide)) fun _ => .pass fun _ => ?_
  have finish (argument : Option Tree) : Leads (Past drops cs (kept ++ argument.toList.flatMap leaves))
      (pure (Tree.mk (.returnStatement argument))) fun t => Past drops cs (kept ++ t.leaves) :=
    .pure fun _ h => h.node (by simp [Node.children, Node.fields]) rfl rfl
  refine .ite (fun _ => .of (by simp) (finish none)) fun _ => .pass fun _ => ?_
  refine .ite (fun _ => .of (by simp) (finish none)) fun _ => ?_
  refine .next (expressions_weaves hread) fun e => .pass fun _ => .of (by simp) (finish (some e))

/-! ## Statements that begin with a word -/

theorem nameStatement_weaves {name : String} :
    Leads (fun s => Before drops cs kept s ∧ (s.token = .word name ∨ s.token = .name name)) (nameStatement read fuel name)
      fun t => Past drops cs (kept ++ t.leaves) := by
  refine .second fun next => .ite (fun hcolon => ?_) fun _ => .of (fun _ h => h.1.1) (expressionStatement_weaves hread)
  have hname (s : State) (h : (Before drops cs kept s ∧ (s.token = .word name ∨ s.token = .name name)) ∧ s.next = next) :
      Past drops cs (kept ++ (identifierTree name).leaves) s.next ∧ s.next.token = .punct ":" := by
    rw [leaves_identifierTree]
    simp only [Bool.and_eq_true, decide_eq_true_eq] at hcolon
    refine ⟨?_, h.2 ▸ hcolon.1⟩
    rcases h.1.2 with ht | ht
    · exact h.1.1.word ht
    · exact h.1.1.name ht
  refine .advance (S := fun s => Past drops cs (kept ++ (identifierTree name).leaves) s ∧ s.token = .punct ":") hname ?_
  refine .advance (fun s h => h.1.before.punct h.2) (.bind (inner_weaves hread) fun body => ?_)
  exact .pure fun _ h => h.node (by simp [Node.children, Node.fields]) rfl rfl

theorem wordStatement_weaves {w : String} :
    Leads (fun s => Before drops cs kept s ∧ s.token = .word w) (wordStatement read fuel w)
    fun t => Past drops cs (kept ++ t.leaves) := by
  refine .look fun _ => ?_
  refine .ite (fun _ => .of (fun _ h => h.1) (verbatim_weaves fun _ => usingDeclaration_onward hread)) fun _ => ?_
  refine .ite (fun _ => .of (fun _ h => h.1) (expressionStatement_weaves hread)) fun _ => ?_
  exact .of (fun _ h => ⟨h.1, .inl h.2⟩) (nameStatement_weaves hread)

theorem keywordStatement_weaves {w : String} : Leads (fun s => Before drops cs kept s ∧ s.token = .word w)
    (keywordStatement read fuel w) fun t => Past drops cs (kept ++ t.leaves) := by
  have passed (hk : isKeyword w = true) (s : State) (h : Before drops cs kept s ∧ s.token = .word w) :
      Past drops cs kept s.next :=
    h.1.keyword h.2 hk
  unfold keywordStatement
  split
  next => exact declaration_weaves hread (by decide)
  next => exact declaration_weaves hread (by decide)
  next => exact .look fun _ => .ite (fun _ => declaration_weaves hread (by decide)) fun _ => wordStatement_weaves hread
  next => exact .of (fun _ h => h.1) (ifStatement_weaves hread)
  next => exact .of (fun _ h => h.1) (forStatement_weaves hread)
  next =>
    refine .advance (fun s h => (passed (by decide) s h).before) (.bind (condition_weaves hread) fun test => .pass fun _ => ?_)
    exact .bind (inner_weaves hread) fun body => .pure fun _ h => h.node (by simp [Node.children, Node.fields]) rfl rfl
  next => exact .of (fun _ h => h.1) (doStatement_weaves hread)
  next => exact .of (fun _ h => h.1) (tryStatement_weaves hread)
  next => exact .of (fun _ h => h.1) (switchStatement_weaves hread)
  next => exact .bind (jumpLabel_weaves (by decide)) fun _ => .pure fun _ h => h.node (by simp [Node.children, Node.fields]) rfl rfl
  next => exact .bind (jumpLabel_weaves (by decide)) fun _ => .pure fun _ h => h.node (by simp [Node.children, Node.fields]) rfl rfl
  next => exact .of (fun _ h => h.1) (returnStatement_weaves hread)
  next =>
    refine .advance (fun s h => (passed (by decide) s h).before) (.bind (expressions_weaves hread) fun e => .pass fun _ => ?_)
    exact .pure fun _ h => h.node (by simp [Node.children, Node.fields]) rfl rfl
  next =>
    exact .of (fun _ h => h.1) (verbatim_weaves fun _ => .advance (fun _ h => h.next) .passed)
  next =>
    refine .of (fun _ h => h.1) (verbatim_weaves fun cs => .advance (fun _ h => h.next) ?_)
    have tested : Leads (Onward cs) (condition read fuel) fun _ => Onward cs :=
      .of (fun _ h => h.facing) (.onward drops fun _ => condition_weaves hread)
    have done : Leads (Onward cs) (read .statement) fun _ => Onward cs :=
      .of (fun _ h => h.facing) (.onward drops fun _ => hread.statement _ _)
    exact .bind tested fun _ => .pass fun _ => .bind done fun _ => .pure fun _ h => h
  next =>
    refine .look fun next => .ite (fun _ => .of (fun _ h => h.1) (expressionStatement_weaves hread)) fun _ => ?_
    exact .of (fun _ h => h.1) (verbatim_weaves fun _ => importDeclaration_onward hread)
  next =>
    refine .look fun _ => .ite (fun _ => .of (fun _ h => h.1) (verbatim_weaves fun _ => ?_)) fun _ => wordStatement_weaves hread
    exact exportDeclaration_onward hread
  next => exact wordStatement_weaves hread

theorem decoratedStatement_weaves :
    Leads (Before drops cs kept) (decoratedStatement read fuel) fun t => Past drops cs (kept ++ t.leaves) := by
  unfold decoratedStatement
  extract_lets asExport asClass
  refine .orElse (verbatim_weaves fun cs => ?_) (.orElse ?_ (expressionStatement_weaves hread))
  · have decorated : Leads (Facing cs) (decorators read fuel) fun _ => Facing cs :=
      fun s _ s' h he => (decorators_weaves hread s _ s' h.before he).facing
    refine .bind decorated fun _ => .bind .onwardWord fun _ => .pass fun _ => ?_
    exact .of (fun _ h => h.facing) (exported_onward hread)
  · refine .bind (decorators_weaves hread) fun _ => .bind (whole_weaves (classDeclaration_weaves hread)) fun o => ?_
    exact .require fun t ht s h => by
      subst ht
      exact h

theorem statement_weaves : Leads (Before drops cs kept) (statement read fuel) fun t => Past drops cs (kept ++ t.leaves) := by
  refine .peek fun token => ?_
  split
  next => exact .advance (fun _ h => h.1.punct h.2) (.pure fun _ h => h.node (by simp [Node.children, Node.fields]) rfl rfl)
  next => exact .of (fun _ h => h.1) (blockOr_weaves hread (fun _ _ h => h) (expressionStatement_weaves hread))
  next => exact .of (fun _ h => ⟨h.1, .inr h.2⟩) (nameStatement_weaves hread)
  next => exact .of (fun _ h => h.1) (decoratedStatement_weaves hread)
  next w =>
    refine .bind (namedDeclaration_weaves hread fun _ h => h.1) fun o => ?_
    cases o with
    | some t => exact .pure fun _ h => h
    | none => exact keywordStatement_weaves hread
  next => exact .of (fun _ h => h.1) (expressionStatement_weaves hread)

end Statements
end Graft.Source
