import Graft.Proofs.Print.Lines
/-!
# The outline of a printed statement

`Tree.guarded` puts a block around every consequent that a following `else` would be taken into, and `Tree.outline` says how the
statements of a tree stand in one another. For each form of statement there is a lemma that what it prints reads back as the outline of
the guarded tree if its parts do (`Tree.ReadsBack`).
-/

namespace Graft

open Lexical
open Piece (blank leaf line mark)

namespace Tree

mutual
/-- The tree with a block around every consequent that would take the `else` of its statement. -/
def guarded : Tree → Tree
  | .mk (.blockStatement body) => .mk (.blockStatement (guardedList body))
  | .mk (.ifStatement test consequent none) => .mk (.ifStatement test (guarded consequent) none)
  | .mk (.ifStatement test consequent (some alternate)) =>
    .mk (.ifStatement test
      (if hasDanglingIf consequent then .mk (.blockStatement [guarded consequent]) else guarded consequent) (some (guarded alternate)))
  | .mk (.forStatement init test update body) => .mk (.forStatement init test update (guarded body))
  | .mk (.forInStatement left right body) => .mk (.forInStatement left right (guarded body))
  | .mk (.forOfStatement left right body isAwait) => .mk (.forOfStatement left right (guarded body) isAwait)
  | .mk (.whileStatement test body) => .mk (.whileStatement test (guarded body))
  | .mk (.doWhileStatement body test) => .mk (.doWhileStatement (guarded body) test)
  | .mk (.tryStatement block handler finalizer) =>
    .mk (.tryStatement (guarded block) (guardedOption handler) (guardedOption finalizer))
  | .mk (.catchClause param body) => .mk (.catchClause param (guarded body))
  | .mk (.switchStatement discriminant cases) => .mk (.switchStatement discriminant (guardedList cases))
  | .mk (.switchCase test consequent) => .mk (.switchCase test (guardedList consequent))
  | .mk (.labeledStatement label body) => .mk (.labeledStatement label (guarded body))
  | .mk (.functionDeclaration ⟨id, params, body, isAsync, generator⟩) =>
    .mk (.functionDeclaration ⟨id, params, guarded body, isAsync, generator⟩)
  | t => t

def guardedList : List Tree → List Tree
  | [] => []
  | t :: rest => guarded t :: guardedList rest

def guardedOption : Option Tree → Option Tree
  | none => none
  | some t => some (guarded t)
end

/-- The clauses of a counting loop. -/
def countingHead (init test update : Option Tree) (c : PrintContext) : Pieces :=
  initializer init c ++ [.mark ";"] ++ laterClause test c ++ [.mark ";"] ++ laterClause update c

mutual
/-- How the statements in a statement stand in one another. Of the expressions and declarations in it there are the tokens they print. -/
def outline : Tree → PrintContext → Grammar.Outline
  | .mk (.blockStatement body), c => .block (outlines body c.deeper.withIn)
  | .mk (.ifStatement test consequent alternate), c =>
    .branch (tokens (asOperand test (pieces test) Level.sequence c)) (outline consequent c) (outlineOption alternate c)
  | .mk (.forStatement init test update body), c => .loop ["for"] (tokens (countingHead init test update c)) (outline body c)
  | .mk (.forInStatement left right body), c =>
    .loop ["for"] (tokens (loopTarget left c ++ .mark "in" :: asOperand right (pieces right) Level.sequence c)) (outline body c)
  | .mk (.forOfStatement left right body isAwait), c =>
    .loop (if isAwait then ["for", "await"] else ["for"])
      (tokens (loopTarget left c ++ .mark "of" :: asOperand right (pieces right) Level.assign c)) (outline body c)
  | .mk (.whileStatement test body), c =>
    .loop ["while"] (tokens (asOperand test (pieces test) Level.sequence c)) (outline body c)
  | .mk (.doWhileStatement body test), c =>
    .doLoop (outline body c) (tokens (asOperand test (pieces test) Level.sequence c))
  | .mk (.tryStatement block handler finalizer), c =>
    .attempt (outline block c) (handlerOutline handler c) (outlineOption finalizer c)
  | .mk (.switchStatement discriminant cases), c =>
    .choice (tokens (asOperand discriminant (pieces discriminant) Level.sequence c)) (caseOutlines cases c.deeper)
  | .mk (.labeledStatement label body), c => .labeled (label.identifierName?.getD "") (outline body c)
  | .mk (.functionDeclaration ⟨id, params, body, isAsync, generator⟩), c =>
    .function (tokens (functionHead ⟨id, params, body, isAsync, generator⟩ c)) (tokens (listed params c)) (outline body c)
  | .mk (.classDeclaration parts), c => .classed (tokens (classPieces parts c))
  | t, c => .line (tokens (pieces t c)).dropLast

def outlines : List Tree → PrintContext → List Grammar.Outline
  | [], _ => []
  | t :: rest, c => outline t c :: outlines rest c

def outlineOption : Option Tree → PrintContext → Option Grammar.Outline
  | none, _ => none
  | some t, c => some (outline t c)

def handlerOutline : Option Tree → PrintContext → Option (Option (List String) × Grammar.Outline)
  | some (.mk (.catchClause param body)), c =>
    some (param.map fun p => tokens (asOperand p (pieces p) Level.assign c), outline body c)
  | _, _ => none

def caseOutlines : List Tree → PrintContext → List (Option (List String) × List Grammar.Outline)
  | [], _ => []
  | .mk (.switchCase test consequent) :: rest, c =>
    (test.map fun t => tokens (asOperand t (pieces t) Level.sequence c), outlines consequent c.deeper) :: caseOutlines rest c
  | _ :: rest, c => caseOutlines rest c
end

/-! ## Pieces -/

section Pieces
variable (c : PrintContext) (test body label u : Tree)

theorem pieces_whileStatement : pieces (.mk (.whileStatement test body)) c = [mark "while", blank, mark "("] ++
    asOperand test (pieces test) Level.sequence c ++ [mark ")", blank] ++ asStatement body (pieces body) c := rfl

theorem pieces_doWhileStatement : pieces (.mk (.doWhileStatement body test)) c =
    [mark "do", blank] ++ asStatement body (pieces body) c ++ [blank, mark "while", blank, mark "("] ++
      asOperand test (pieces test) Level.sequence c ++ [mark ")", mark ";"] := rfl

theorem pieces_labeledStatement : pieces (.mk (.labeledStatement label body)) c =
    asOperand label (pieces label) Level.primary c ++ [mark ":", blank] ++ asStatement body (pieces body) c := rfl

theorem pieces_ifStatement : pieces (.mk (.ifStatement test body none)) c = [mark "if", blank, mark "("] ++
    asOperand test (pieces test) Level.sequence c ++ [mark ")", blank] ++ asStatement body (pieces body) c ++ [] := rfl

theorem pieces_ifElseStatement : pieces (.mk (.ifStatement test body (some u))) c = [mark "if", blank, mark "("] ++
    asOperand test (pieces test) Level.sequence c ++ [mark ")", blank] ++
    (if hasDanglingIf body then
        [mark "\x7b", line (c.depth + 1)] ++ asStatement body (pieces body) c.deeper.withIn ++ [line c.depth, mark "\x7d"]
      else asStatement body (pieces body) c) ++
    ([blank, mark "else", blank] ++ asStatement u (pieces u) c) := rfl

theorem pieces_switchStatement (cases : List Tree) : pieces (.mk (.switchStatement test cases)) c =
    [mark "switch", blank, mark "("] ++ asOperand test (pieces test) Level.sequence c ++ [mark ")", blank, mark "\x7b"] ++
      switchCases cases c.deeper ++ [line c.depth, mark "\x7d"] := rfl

theorem switchCase_test (ts : List Tree) : switchCase (.mk (.switchCase (some test) ts)) c =
    line c.depth :: ([mark "case", blank] ++ asOperand test (pieces test) Level.sequence c ++ [mark ":"]) ++ lines ts c.deeper := rfl

theorem catchClause_param (p : Tree) : catchClause (.mk (.catchClause (some p) body)) c =
    [blank, mark "catch", blank] ++ (mark "(" :: asOperand p (pieces p) Level.assign c ++ [mark ")", blank]) ++
      asStatement body (pieces body) c := rfl

theorem pieces_tryStatement (handler finalizer : Option Tree) : pieces (.mk (.tryStatement body handler finalizer)) c =
    [mark "try", blank] ++ asStatement body (pieces body) c ++ (handler.elim [] fun h => catchClause h c) ++
      finalizer.elim [] fun f => [blank, mark "finally", blank] ++ asStatement f (pieces f) c := by
  cases handler <;> cases finalizer <;> rfl

end Pieces

/-! ## Tokens -/

/-- The tokens of a tree where a statement stands. -/
def stated (t : Tree) (c : PrintContext) : List String := tokens (asStatement t (pieces t) c)

theorem stated_eq {n : Node Tree} (h : n.isStatement = true) (c : PrintContext) : stated (.mk n) c = tokens (pieces (.mk n) c) := by
  cases n <;> first | rfl | cases h

section Tokens
variable (c : PrintContext) (test body left right label u : Tree)

theorem stated_whileStatement : stated (.mk (.whileStatement test body)) c =
    "while" :: "(" :: (tokens (asOperand test (pieces test) Level.sequence c) ++ ")" :: stated body c) := by
  rw [stated_eq rfl, pieces_whileStatement]
  simp [stated]

theorem stated_forStatement (init test update : Option Tree) : stated (.mk (.forStatement init test update body)) c =
    "for" :: "(" :: (tokens (countingHead init test update c) ++ ")" :: stated body c) := by
  rw [stated_eq rfl, pieces_forStatement]
  simp [countingHead, stated]

theorem stated_forInStatement : stated (.mk (.forInStatement left right body)) c = "for" :: "(" ::
    (tokens (loopTarget left c ++ mark "in" :: asOperand right (pieces right) Level.sequence c) ++ ")" :: stated body c) := by
  rw [stated_eq rfl, pieces_forInStatement]
  simp [stated]

theorem stated_forOfStatement (isAwait : Bool) : stated (.mk (.forOfStatement left right body isAwait)) c =
    (if isAwait then ["for", "await"] else ["for"]) ++ "(" ::
      (tokens (loopTarget left c ++ mark "of" :: asOperand right (pieces right) Level.assign c) ++ ")" :: stated body c) := by
  rw [stated_eq rfl, pieces_forOfStatement]
  cases isAwait <;> simp [optionally, stated]

theorem stated_doWhileStatement : stated (.mk (.doWhileStatement body test)) c =
    "do" :: (stated body c ++ "while" :: "(" :: (tokens (asOperand test (pieces test) Level.sequence c) ++ [")", ";"])) := by
  rw [stated_eq rfl, pieces_doWhileStatement]
  simp [stated]

theorem stated_labeledStatement : stated (.mk (.labeledStatement label body)) c =
    tokens (asOperand label (pieces label) Level.primary c) ++ ":" :: stated body c := by
  rw [stated_eq rfl, pieces_labeledStatement]
  simp [stated]

theorem stated_ifStatement : stated (.mk (.ifStatement test body none)) c =
    "if" :: "(" :: (tokens (asOperand test (pieces test) Level.sequence c) ++ ")" :: stated body c) := by
  rw [stated_eq rfl, pieces_ifStatement]
  simp [stated]

/-- A consequent in front of an `else`. -/
def consequentTokens (t : Tree) (c : PrintContext) : List String :=
  if hasDanglingIf t then "\x7b" :: (stated t c.deeper.withIn ++ ["\x7d"]) else stated t c

theorem stated_ifElseStatement : stated (.mk (.ifStatement test body (some u))) c =
    "if" :: "(" :: (tokens (asOperand test (pieces test) Level.sequence c) ++ ")" ::
      (consequentTokens body c ++ "else" :: stated u c)) := by
  rw [stated_eq rfl, pieces_ifElseStatement, consequentTokens]
  split <;> simp [stated]

theorem stated_blockStatement (ts : List Tree) :
    stated (.mk (.blockStatement ts)) c = "\x7b" :: (tokens (lines ts c.deeper.withIn) ++ ["\x7d"]) := by
  show tokens (block ts c) = _
  cases ts with
  | nil => rfl
  | cons t ts =>
    rw [block, lines]
    simp

theorem tokens_lines (t : Tree) (ts : List Tree) : tokens (lines (t :: ts) c) = stated t c ++ tokens (lines ts c) := by
  rw [lines]
  simp [stated]

theorem tokens_switchCase (ts : List Tree) : tokens (switchCase (.mk (.switchCase (some test) ts)) c) =
    "case" :: (tokens (asOperand test (pieces test) Level.sequence c) ++ ":" :: tokens (lines ts c.deeper)) := by
  rw [switchCase_test]
  simp

theorem stated_switchStatement (cases : List Tree) : stated (.mk (.switchStatement test cases)) c =
    "switch" :: "(" :: (tokens (asOperand test (pieces test) Level.sequence c) ++ ")" :: "\x7b" ::
      (tokens (switchCases cases c.deeper) ++ ["\x7d"])) := by
  rw [stated_eq rfl, pieces_switchStatement]
  simp

theorem tokens_catchClause (p : Tree) : tokens (catchClause (.mk (.catchClause (some p) body)) c) =
    "catch" :: "(" :: (tokens (asOperand p (pieces p) Level.assign c) ++ ")" :: stated body c) := by
  rw [catchClause_param]
  simp [stated]

theorem stated_tryStatement (handler finalizer : Option Tree) : stated (.mk (.tryStatement body handler finalizer)) c =
    "try" :: (stated body c ++ ((handler.elim [] fun h => tokens (catchClause h c)) ++
      finalizer.elim [] fun f => "finally" :: stated f c)) := by
  rw [stated_eq rfl, pieces_tryStatement]
  cases handler <;> cases finalizer <;> simp [stated]

theorem stated_functionDeclaration (f : Func Tree) : stated (.mk (.functionDeclaration f)) c =
    tokens (functionHead f c) ++ "(" :: (tokens (listed f.params c) ++ ")" :: stated f.body c) := by
  show tokens (function f c) = _
  rw [function_eq]
  simp [stated]

end Tokens

/-! ## Parts -/

open Grammar

/-- What may come behind a statement. A block is closed by itself. -/
structure MayFollow (t : Tree) (rest : List String) : Prop where
  dangling : hasDanglingIf t = true → rest.head? ≠ some "else"
  closed : t.node.isBlock = false → rest.head? ≠ some "catch" ∧ rest.head? ≠ some "finally"

/-- The printed statement reads as the outline of the guarded tree. -/
def ReadsBack (t : Tree) : Prop :=
  ∀ c rest, MayFollow t rest → Statement (stated t c ++ rest) (outline (guarded t) c) rest

variable {t u body : Tree} {ts : List Tree} {c : PrintContext} {rest us : List String} {w : String} {σ : Slot}

theorem mayFollow_of_head (h : rest.head? = some w) (hw : w ∉ ["else", "catch", "finally"]) (t : Tree) : MayFollow t rest := by
  simp only [List.mem_cons, List.not_mem_nil, or_false, not_or] at hw
  refine ⟨fun _ => ?_, fun _ => ⟨?_, ?_⟩⟩ <;> (rw [h, ne_eq, Option.some_inj]; simp [hw])

/-- What may follow a statement may follow the one it ends in. -/
theorem MayFollow.last (h : MayFollow t rest) (ht : t.node.isBlock = false) (hd : hasDanglingIf u = hasDanglingIf t) :
    MayFollow u rest :=
  ⟨fun hu => h.dangling (hd ▸ hu), fun _ => h.closed ht⟩

/-! ## Statements that end in a statement -/

section Loops
variable (hbody : body.ReadsBack)
include hbody

/-- A loop, from its parentheses on. -/
theorem ReadsBack.loop (words : List String) {ps : Pieces} (hps : Paired ps)
    (hlead : ∀ ts, lead (words ++ "(" :: ts) = .loop words ("(" :: ts)) (hrest : MayFollow body rest) :
    Statement (words ++ "(" :: (tokens ps ++ ")" :: (stated body c ++ rest)))
      (.loop words (tokens ps) (outline (guarded body) c)) rest :=
  .loop (hlead _) (group_eq hps.balanced) (hbody c rest hrest)

theorem ReadsBack.whileStatement {test : Tree} (htest : test.PrintsPaired) : ReadsBack (.mk (.whileStatement test body)) := by
  intro c rest h
  have hhead : Paired (asOperand test (pieces test) Level.sequence c) := paired_asOperand htest
  have hread := hbody.loop (c := c) ["while"] hhead (fun _ => rfl) (h.last rfl rfl)
  refine hread.congr ?_ rfl
  rw [stated_whileStatement]
  simp

theorem ReadsBack.forStatement {init test update : Option Tree} (hhead : ∀ c, Paired (countingHead init test update c)) :
    ReadsBack (.mk (.forStatement init test update body)) := by
  intro c rest h
  have hread := hbody.loop (c := c) ["for"] (hhead c) (fun _ => rfl) (h.last rfl rfl)
  refine hread.congr ?_ rfl
  rw [stated_forStatement]
  simp

theorem ReadsBack.forInStatement {left right : Tree} (hleft : ∀ c, Paired (loopTarget left c)) (hright : right.PrintsPaired) :
    ReadsBack (.mk (.forInStatement left right body)) := by
  intro c rest h
  have hhead : Paired (loopTarget left c ++ mark "in" :: asOperand right (pieces right) Level.sequence c) :=
    (hleft c).append (Passes.cons (paired_fixed rfl) (paired_asOperand hright))
  have hread := hbody.loop (c := c) ["for"] hhead (fun _ => rfl) (h.last rfl rfl)
  refine hread.congr ?_ rfl
  rw [stated_forInStatement]
  simp

theorem ReadsBack.forOfStatement {left right : Tree} {isAwait : Bool} (hleft : ∀ c, Paired (loopTarget left c))
    (hright : right.PrintsPaired) : ReadsBack (.mk (.forOfStatement left right body isAwait)) := by
  intro c rest h
  have hhead : Paired (loopTarget left c ++ mark "of" :: asOperand right (pieces right) Level.assign c) :=
    (hleft c).append (Passes.cons (paired_fixed rfl) (paired_asOperand hright))
  have hread := hbody.loop (c := c) (if isAwait then ["for", "await"] else ["for"]) hhead
    (fun _ => by cases isAwait <;> rfl) (h.last rfl rfl)
  refine hread.congr ?_ rfl
  rw [stated_forOfStatement]
  simp

theorem ReadsBack.doWhileStatement {test : Tree} (htest : test.PrintsPaired) : ReadsBack (.mk (.doWhileStatement body test)) := by
  intro c rest h
  have hbody := hbody c ("while" :: "(" :: (tokens (asOperand test (pieces test) Level.sequence c) ++ ")" :: ";" :: rest))
    (mayFollow_of_head rfl (by decide) body)
  have hgroup : Paired (asOperand test (pieces test) Level.sequence c) := paired_asOperand htest
  have hread : Statement ("do" :: _) _ rest := .doLoop rfl hbody (group_eq hgroup.balanced)
  refine hread.congr ?_ rfl
  rw [stated_doWhileStatement]
  simp

end Loops

theorem ReadsBack.lead_labeled {label : Tree} (hlabel : Spelt (fun _ => False) .name label) (c : PrintContext) :
    ∃ w, asOperand label (pieces label) Level.primary c = [leaf w] ∧ label.identifierName? = some w ∧
      ∀ ts, lead (w :: ":" :: ts) = .labeled w ts := by
  obtain ⟨n⟩ := label
  have ha := hlabel.allows
  cases n with
  | identifier name =>
    have hannounce : name ∉ announcing := Node.not_announcing rfl hlabel.spelt nofun nofun
    have hl : isLabel name = true := Node.isLabel_name hlabel.spelt nofun nofun
    exact ⟨name, if_neg (by simp [level, node, Node.level, Node.isBareIn]), rfl, fun ts => Grammar.lead_labeled hannounce hl⟩
  | _ => cases ha

theorem ReadsBack.labeledStatement {label : Tree} (hlabel : Spelt (fun _ => False) .name label) (hbody : body.ReadsBack) :
    ReadsBack (.mk (.labeledStatement label body)) := by
  intro c rest h
  obtain ⟨w, hw, hname, hlead⟩ := lead_labeled hlabel c
  have hread := Statement.labeled (hlead _) (hbody c rest (h.last rfl rfl))
  refine hread.congr ?_ ?_
  · rw [stated_labeledStatement, hw]
    simp
  · show Outline.labeled (label.identifierName?.getD "") _ = _
    rw [hname]
    rfl

/-! ## Conditions -/

theorem ReadsBack.consequent (hbody : body.ReadsBack) (c : PrintContext) (ts : List String) :
    Statement (consequentTokens body c ++ "else" :: ts)
      (outline (if hasDanglingIf body then .mk (.blockStatement [guarded body]) else guarded body) c) ("else" :: ts) := by
  unfold consequentTokens
  cases hd : hasDanglingIf body with
  | true =>
    have hinner := hbody c.deeper.withIn ("\x7d" :: "else" :: ts) (mayFollow_of_head rfl (by decide) body)
    have hread : Statement ("\x7b" :: _) _ ("else" :: ts) := .block rfl (.next hinner (.done (by decide)))
    refine hread.congr ?_ rfl
    simp
  | false =>
    exact hbody c _ ⟨fun h => absurd h (by simp [hd]), fun _ => ⟨by simp, by simp⟩⟩

theorem ReadsBack.ifStatement {test consequent : Tree} {alternate : Option Tree} (htest : test.PrintsPaired)
    (hconsequent : consequent.ReadsBack) (halternate : ∀ u ∈ alternate, u.ReadsBack) :
    ReadsBack (.mk (.ifStatement test consequent alternate)) := by
  intro c rest h
  have hgroup : Paired (asOperand test (pieces test) Level.sequence c) := paired_asOperand htest
  cases alternate with
  | none =>
    have hbody := hconsequent c rest ⟨fun _ => h.dangling rfl, fun _ => h.closed rfl⟩
    have hread : Statement ("if" :: _) _ rest := .branch rfl (group_eq hgroup.balanced) hbody (.absent (h.dangling rfl))
    refine hread.congr ?_ rfl
    rw [stated_ifStatement]
    simp
  | some u =>
    have hu := halternate u rfl c rest (h.last rfl rfl)
    have hbody := hconsequent.consequent c (stated u c ++ rest)
    have hread : Statement ("if" :: _) _ rest := .branch rfl (group_eq hgroup.balanced) hbody (.present hu)
    refine hread.congr ?_ rfl
    rw [stated_ifElseStatement]
    simp

/-! ## Lists of statements -/

/-- What may come behind the statements of a list. -/
def Ends (ts : List String) : Prop := ∃ w rest, ts = w :: rest ∧ w ∈ ["\x7d", "case", "default"]

/-- No list of statements begins with a word that would go on with the statement in front of it. -/
theorem mayFollow_of_statements {os : List Outline} (h : Statements us os rest) (hrest : Ends rest) (t : Tree) : MayFollow t us := by
  have hends : ∀ w ∈ ["\x7d", "case", "default"], w ∉ ["else", "catch", "finally"] := by decide
  cases h with
  | done _ =>
    obtain ⟨w, ws, he, hw⟩ := hrest
    cases he
    exact mayFollow_of_head rfl (hends _ hw) t
  | next ho _ =>
    cases us with
    | nil => exact absurd rfl ho.lead_ne
    | cons w us =>
      have hcontinues : ∀ w ∈ ["else", "catch", "finally"], w ∈ continuations := by decide
      exact mayFollow_of_head rfl (fun hw => ho.not_continuation (hcontinues w hw)) t

theorem ReadsBack.lines (h : ∀ t ∈ ts, t.ReadsBack) (hrest : Ends rest) :
    Statements (tokens (lines ts c) ++ rest) (outlines (guardedList ts) c) rest := by
  induction ts with
  | nil =>
    obtain ⟨w, ws, rfl, hw⟩ := hrest
    have hcontinues : ∀ w ∈ ["\x7d", "case", "default"], w ∈ continuations := by decide
    exact .done (hcontinues w hw)
  | cons t ts ih =>
    have hts := ih fun u hu => h u (List.mem_cons_of_mem _ hu)
    have ht := h t List.mem_cons_self c _ (mayFollow_of_statements hts hrest t)
    rw [tokens_lines]
    simpa [guardedList, outlines] using Statements.next ht hts

theorem ReadsBack.blockStatement (h : ∀ t ∈ ts, t.ReadsBack) : ReadsBack (.mk (.blockStatement ts)) := by
  intro c rest _
  have hlines := ReadsBack.lines (c := c.deeper.withIn) h ⟨"\x7d", rest, rfl, by decide⟩
  have hread : Statement ("\x7b" :: _) _ rest := .block rfl hlines
  refine hread.congr ?_ rfl
  rw [stated_blockStatement]
  simp

/-! ## Cases -/

/-- A case reads back in front of others. -/
def ReadsCase (s : Tree) : Prop := ∀ c ts cs rest, Ends ts → Cases ts cs rest →
  Cases (tokens (switchCase s c) ++ ts) (caseOutlines [guarded s] c ++ cs) rest

theorem readsCase {test : Option Tree} (htest : ∀ t ∈ test, t.PrintsPaired ∧ t.PrintsInLine) (h : ∀ t ∈ ts, t.ReadsBack) :
    ReadsCase (.mk (.switchCase test ts)) := by
  intro c us cs rest hends hcs
  have hlines := ReadsBack.lines (c := c.deeper) h hends
  cases test with
  | none =>
    have hread : Cases ("default" :: ":" :: _) _ rest := .next rfl hlines hcs
    exact hread
  | some t =>
    obtain ⟨hp, ht⟩ := htest t rfl
    have hoperand : Crosses inLine 0 (asOperand t (pieces t) Level.sequence c) 0 := inLine_asOperand hp ht
    have hcase : caseTest ("case" :: (tokens (asOperand t (pieces t) Level.sequence c) ++ ":" :: (tokens (Tree.lines ts c.deeper) ++ us))) =
        some (some (tokens (asOperand t (pieces t) Level.sequence c)), tokens (Tree.lines ts c.deeper) ++ us) := by
      rw [caseTest, upTo_eq rfl hoperand]
      rfl
    have hread := Cases.next hcase hlines hcs
    rw [tokens_switchCase, List.cons_append, List.append_assoc]
    exact hread

theorem ends_cases (ss : List Tree) (h : ∀ s ∈ ss, Slot.switchCase.allows s.node = true) (c : PrintContext) (rest : List String) :
    Ends (tokens (switchCases ss c) ++ "\x7d" :: rest) := by
  cases ss with
  | nil => exact ⟨"\x7d", rest, rfl, by decide⟩
  | cons s ss =>
    have hs := h s List.mem_cons_self
    obtain ⟨n⟩ := s
    cases n with
    | switchCase test consequent =>
      cases test with
      | none => exact ⟨"default", _, rfl, by decide⟩
      | some t => exact ⟨"case", _, rfl, by decide⟩
    | _ => cases hs

theorem ReadsBack.switchCases {ss : List Tree} (h : ∀ s ∈ ss, Slot.switchCase.allows s.node = true ∧ s.ReadsCase) :
    Cases (tokens (switchCases ss c) ++ "\x7d" :: rest) (caseOutlines (guardedList ss) c) ("\x7d" :: rest) := by
  induction ss with
  | nil => exact .done
  | cons s ss ih =>
    have hss := ih fun u hu => h u (List.mem_cons_of_mem _ hu)
    obtain ⟨hs, hreads⟩ := h s List.mem_cons_self
    have hends := ends_cases ss (fun u hu => (h u (List.mem_cons_of_mem _ hu)).1) c rest
    have hread := hreads c _ _ _ hends hss
    rw [Tree.switchCases]
    obtain ⟨n⟩ := s
    cases n with
    | switchCase test consequent => simpa [guardedList, guarded, caseOutlines] using hread
    | _ => cases hs

theorem ReadsBack.switchStatement {discriminant : Tree} {ss : List Tree} (hd : discriminant.PrintsPaired)
    (h : ∀ s ∈ ss, Slot.switchCase.allows s.node = true ∧ s.ReadsCase) : ReadsBack (.mk (.switchStatement discriminant ss)) := by
  intro c rest _
  have hgroup : Paired (asOperand discriminant (pieces discriminant) Level.sequence c) := paired_asOperand hd
  have hcases : Cases (tokens (Tree.switchCases ss c.deeper) ++ "\x7d" :: rest) (caseOutlines (guardedList ss) c.deeper) ("\x7d" :: rest) :=
    ReadsBack.switchCases h
  have hread : Statement ("switch" :: _) _ rest := .choice rfl (group_eq hgroup.balanced) hcases
  refine hread.congr ?_ rfl
  rw [stated_switchStatement]
  simp

/-! ## Handlers -/

/-- A handler reads back, and nothing is asked of what is behind it. -/
def ReadsHandler (t : Tree) : Prop := ∀ c rest, Handler (tokens (catchClause t c) ++ rest) (handlerOutline (some (guarded t)) c) rest

/-- A block stands for itself. -/
structure ReadsBlock (t : Tree) : Prop where
  isBlock : t.node.isBlock = true
  reads : t.ReadsBack

namespace ReadsBlock

theorem mayFollow (h : ReadsBlock t) (rest : List String) : MayFollow t rest := by
  have hb := h.isBlock
  refine ⟨fun hd => ?_, fun hn => by simp [hb] at hn⟩
  obtain ⟨n⟩ := t
  cases n <;> first | cases hd | cases hb

theorem outline_isBlock (h : ReadsBlock t) : (outline (guarded t) c).isBlock = true := by
  have hb := h.isBlock
  obtain ⟨n⟩ := t
  cases n <;> first | rfl | cases hb

theorem statement (h : ReadsBlock t) (c : PrintContext) (rest : List String) :
    Statement (stated t c ++ rest) (outline (guarded t) c) rest :=
  h.reads c rest (h.mayFollow rest)

/-- A block begins with its brace. -/
theorem starts (h : ReadsBlock t) (c : PrintContext) : ∃ us, stated t c = "\x7b" :: us := by
  have hb := h.isBlock
  obtain ⟨n⟩ := t
  cases n with
  | blockStatement body => exact ⟨_, stated_blockStatement c body⟩
  | _ => cases hb

end ReadsBlock

theorem readsHandler {param : Option Tree} (hparam : ∀ p ∈ param, p.PrintsPaired) (hbody : ReadsBlock body) :
    ReadsHandler (.mk (.catchClause param body)) := by
  intro c rest
  have hstatement := hbody.statement c rest
  cases param with
  | none =>
    obtain ⟨us, hus⟩ := hbody.starts c
    have hparameter : parameter (stated body c ++ rest) =
        (none, stated body c ++ rest) := by
      rw [hus]
      rfl
    have hread : Handler ("catch" :: (stated body c ++ rest)) _ rest := .present (by rwa [hparameter]) hbody.outline_isBlock
    rw [hparameter] at hread
    exact hread
  | some p =>
    have hgroup : Paired (asOperand p (pieces p) Level.assign c) := paired_asOperand (hparam p rfl)
    have hparameter : parameter ("(" :: (tokens (asOperand p (pieces p) Level.assign c) ++
          ")" :: (stated body c ++ rest))) =
        (some (tokens (asOperand p (pieces p) Level.assign c)), stated body c ++ rest) := by
      rw [parameter, group_eq hgroup.balanced]
    have hread := Handler.present (by rwa [hparameter]) hbody.outline_isBlock
    rw [hparameter] at hread
    rw [tokens_catchClause, List.cons_append, List.cons_append, List.append_assoc]
    exact hread

theorem ReadsBack.tryStatement {block : Tree} {handler finalizer : Option Tree} (hblock : ReadsBlock block)
    (hhandler : ∀ h ∈ handler, Slot.handler.allows h.node = true ∧ h.ReadsHandler) (hfinalizer : ∀ f ∈ finalizer, ReadsBlock f)
    (hcomplete : (handler.isSome || finalizer.isSome) = true) : ReadsBack (.mk (.tryStatement block handler finalizer)) := by
  intro c rest h
  obtain ⟨us, hus⟩ : ∃ us, us = (finalizer.elim [] fun f => "finally" :: stated f c) ++ rest := ⟨_, rfl⟩
  have hfinally : Clause "finally" us (outlineOption (guardedOption finalizer) c) rest ∧
      ∀ o ∈ outlineOption (guardedOption finalizer) c, o.isBlock = true := by
    subst hus
    cases finalizer with
    | none => exact ⟨.absent (h.closed rfl).2, nofun⟩
    | some f =>
      refine ⟨.present ((hfinalizer f rfl).statement c rest), ?_⟩
      rintro o ⟨⟩
      exact (hfinalizer f rfl).outline_isBlock
  have hcatch : Handler ((handler.elim [] fun h => tokens (catchClause h c)) ++ us) (handlerOutline (guardedOption handler) c) us ∧
      (handlerOutline (guardedOption handler) c).isSome = handler.isSome := by
    cases handler with
    | none =>
      refine ⟨.absent ?_, rfl⟩
      cases finalizer with
      | none => cases hcomplete
      | some f =>
        subst hus
        exact fun he => absurd (Option.some.inj he) (by decide)
    | some g =>
      obtain ⟨hallows, hreads⟩ := hhandler g rfl
      refine ⟨hreads c us, ?_⟩
      obtain ⟨n⟩ := g
      cases n <;> first | rfl | cases hallows
  have hparts : ((handlerOutline (guardedOption handler) c).isSome || (outlineOption (guardedOption finalizer) c).isSome) = true := by
    rw [hcatch.2]
    cases finalizer with
    | none => simpa [guardedOption, outlineOption] using hcomplete
    | some f => simp [guardedOption, outlineOption]
  have hread : Statement ("try" :: _) _ rest :=
    .attempt rfl (hblock.statement c _) hblock.outline_isBlock hcatch.1 hfinally.1 hfinally.2 hparts
  refine hread.congr ?_ rfl
  rw [stated_tryStatement, hus]
  simp

/-! ## Declarations and lines -/

/-- A function shows itself in front of its parameters. -/
theorem lead_function {f : Func Tree} (hid : ∀ t ∈ f.id.toList, Spelt (fun _ => False) .name t) (c : PrintContext) :
    (∀ w ∈ tokens (functionHead f c), w ≠ "(") ∧ ∀ ts, lead (tokens (functionHead f c) ++ ts) = .function := by
  obtain ⟨id, params, body, isAsync, generator⟩ := f
  obtain ⟨names, hnames, hplain⟩ : ∃ names, tokens (id.elim [] fun t => asOperand t (pieces t) Level.primary c) = names ∧
      ∀ w ∈ names, w ≠ "(" := by
    refine ⟨_, rfl, ?_⟩
    cases id with
    | none => nofun
    | some t =>
      obtain ⟨w, hw, hname⟩ := (hid t (by simp)).isName c
      rw [Option.elim, hname]
      refine List.forall_mem_singleton.2 ?_
      rintro rfl
      cases hw.1.1
  cases isAsync <;> cases generator <;>
    exact ⟨by simpa [functionHead, optionally, hnames] using hplain, fun ts => by simp [functionHead, optionally, lead]⟩

theorem ReadsBack.functionDeclaration {f : Func Tree} (hid : ∀ t ∈ f.id.toList, Spelt (fun _ => False) .name t)
    (hparams : ∀ c, Paired (listed f.params c)) (hbody : ReadsBlock f.body) : ReadsBack (.mk (.functionDeclaration f)) := by
  intro c rest _
  obtain ⟨hhead, hlead⟩ := lead_function hid c
  have hplain : ∀ w ∈ tokens (functionHead f c), decide (w ≠ "(") = true := fun w hw => decide_eq_true (hhead w hw)
  have htake (us : List String) : (tokens (functionHead f c) ++ "(" :: us).takeWhile (· ≠ "(") = tokens (functionHead f c) := by
    rw [List.takeWhile_append_of_pos hplain]
    simp
  have hdrop (us : List String) : (tokens (functionHead f c) ++ "(" :: us).dropWhile (· ≠ "(") = "(" :: us := by
    rw [List.dropWhile_append_of_pos hplain]
    simp
  have hgroup : group ("(" :: (tokens (listed f.params c) ++ ")" :: (stated f.body c ++ rest))) = _ := group_eq (hparams c).balanced
  have hread := Statement.function (hlead _) ((congrArg group (hdrop _)).trans hgroup) (hbody.statement c rest) hbody.outline_isBlock
  rw [htake] at hread
  refine hread.congr ?_ rfl
  rw [stated_functionDeclaration]
  simp

theorem ReadsBack.classDeclaration {k : ClassParts Tree} (hid : ∀ t ∈ k.id.toList, Spelt (fun _ => False) .name t)
    (hsuper : ∀ t ∈ k.superClass, Spelt (fun _ => False) .expression t) (hbody : WellFormed .classBody k.body) :
    ReadsBack (.mk (.classDeclaration k)) := by
  intro c rest _
  have hvalue (t : Tree) (ht : t ∈ k.superClass) :
      t.PrintsPaired ∧ PrintsValue Heritage.take (fun n => ⟨n + 1, true, false⟩) (fun n => ⟨n + 1, false, false⟩) t :=
    ⟨(hsuper t ht).wellFormed.contained.paired, (hsuper t ht).crosses follows_heritage (.inl (hsuper t ht).allows) nofun nofun⟩
  have hhead := crosses_classHead follows_heritage (c := c) (n := 0) hid hvalue
  have hclass : Crosses Heritage.take ⟨0, true, false⟩ (classPieces k c) ⟨0, false, false⟩ := by
    rw [classPieces_eq]
    exact .cons (.mark rfl rfl) (hhead.append (.grouped rfl rfl hbody.grouped_classBody rfl))
  have hlead : lead (tokens (classPieces k c) ++ rest) = .classed := by
    rw [classPieces_eq]
    rfl
  exact .classed hlead (classText_eq hclass)

theorem ReadsBack.line (h : Spelt (fun _ => False) σ t) (hl : t.node.isLine = true) : ReadsBack t := by
  intro c rest _
  obtain ⟨us, hus, hrun, hlead⟩ := h.isLine hl c
  have hread : Statement (us ++ ";" :: rest) (.line us) rest := .line (hlead rest) (upTo_eq rfl hrun)
  have houtline : asStatement t (pieces t) c = pieces t c ∧ outline (guarded t) c = .line (tokens (pieces t c)).dropLast := by
    obtain ⟨n⟩ := t
    cases n <;> first | exact ⟨rfl, rfl⟩ | cases hl
  rw [stated, houtline.1, houtline.2, hus]
  simpa using hread

end Tree
end Graft
