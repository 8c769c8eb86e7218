import Graft.Proofs.Source.Weave.Operands
import Graft.Source.Expression
/-!
# Operations are woven from their leaves

`yield`, `await` and the operators. What is read twice, to settle whether `await` is a name, is woven in the way that is taken.
-/

namespace Graft.Source

open Read Graft.Tree

variable {drops : List Char → List Char → Prop} {cs : List Char} {kept : List String}

instance (mode : Mode) : Looks mode.questionAhead? := inferInstanceAs (Looks (get >>= fun _ => pure _))

instance (mode : Mode) (accessed : Bool) : Looks (chainGoesOn mode accessed) := by
  have answer (t : Token) : Looks (match t with
      | .template => pure true
      | .punct p => pure ([".", "?.", "[", "(", "++", "--"].contains p || (accessed && assigns (.punct p)))
      | _ => pure false : Read Bool) := by
    split <;> infer_instance
  exact inferInstanceAs (Looks (mode.stops >>= fun b => if b = true then pure false else peek >>= fun t => match t with
    | .template => pure true
    | .punct p => pure ([".", "?.", "[", "(", "++", "--"].contains p || (accessed && assigns (.punct p)))
    | _ => pure false))

section Operations
variable {read : Readers} {fuel : Nat} {mode : Mode} (hread : WeaveReaders drops read)
include hread

theorem yielded_weaves :
    Leads (fun s => Before drops cs kept s ∧ s.token = .word "yield") (yielded read fuel mode) (PastReading drops cs kept) := by
  refine .textAhead fun s h => ?_
  have here : Facing s.start s := ⟨h.1.lexed, List.suffix_refl _⟩
  refine .advance (S := Onward s.start) (fun _ he => he ▸ here.next) ?_
  refine .look fun _ => .look fun _ => .look fun _ => .look fun _ => .look fun _ => .look fun _ => ?_
  extract_lets follows finish
  have hfinish (u : Unit) : Leads (Onward s.start) (finish u) (PastReading drops cs kept) := by
    refine .bind (Q := fun text => Past drops s.start [text]) .sourceTaken fun text => ?_
    have kept_ (s' : State) (hs : Past drops s.start [text] s') : PastReading drops s.start []
        (.ofExpression (.mk (.verbatim text)) .other) s' := .verbatim hs
    refine .of kept_ (.mono (Q := PastReading drops s.start []) ?_ fun _ _ hr => hr.behind h.1.woven)
    exact .ite (fun _ => .pure fun _ h => h) fun _ => suffixes_weaves hread fuel
  refine .ite (fun _ => .pass fun _ => .bind (Q := fun _ => Onward s.start) ?_ fun _ => hfinish ()) fun _ => hfinish ()
  exact .of (fun _ h => h.facing) (.onward drops fun _ => expressionTree_weaves hread)

theorem awaited_weaves :
    Leads (fun s => Before drops cs kept s ∧ s.token = .word "await") (awaited read fuel mode) (PastReading drops cs kept) := by
  refine .get fun s h => ?_
  extract_lets asName couldBind
  have hname {P : State → Prop} : Leads P asName (PastReading drops cs kept) := .set h.1 (operand_weaves hread)
  refine .advance (S := Past drops cs kept) (fun _ he => he ▸ h.1.keyword h.2 (by decide)) ?_
  refine .look fun _ => .look fun _ => .look fun _ => .look fun _ => .look fun _ => .get fun next hnext => ?_
  extract_lets held finish updatedGoesOn waiting
  refine .ite (fun _ => hname) fun _ => .bind (hread.awaitSense _) fun _ => .ite (fun _ => hname) fun _ => ?_
  refine .bind (hread.awaitSense _) fun _ => .ite (fun _ => hname) fun _ => .of (fun _ he => he ▸ hnext) ?_
  have hfinish (p : Reading × Bool) : Leads (PastReading drops cs kept p.1) (finish p) (PastReading drops cs kept) := by
    refine .requireBind fun e he => ?_
    extract_lets r
    have hr (s : State) (h : PastReading drops cs kept p.1 s) : PastReading drops cs kept r s :=
      .ofExpression (by simpa [leaves_node (n := .awaitExpression e) rfl rfl, Node.children, Node.fields] using h.closed he)
    refine .of hr (.get fun here hhere => ?_)
    have unchanged : Leads (fun s' => s' = here) (pure r) (PastReading drops cs kept) := .pure fun _ he => he ▸ hhere
    refine .ite (fun _ => unchanged) fun _ => ?_
    split
    next => exact unchanged
    next name after hrun =>
      have hafter : PastReading drops cs kept name after := hname (P := fun _ => True) _ _ _ trivial hrun
      extract_lets takesName
      refine .ite (fun _ => .set hafter (.pure fun _ h => h)) fun _ => .ite (fun hlength => .pure fun s' he => ?_)
        fun _ => unchanged
      -- where the name ends with what is waited for, both stand for the same text
      obtain rfl := he
      refine ⟨hhere.lexed, ?_⟩
      rintro _ ⟨_, ⟨t, ht, rfl⟩, rfl⟩
      rcases ht with ht | ht | ⟨⟨⟩⟩ | ⟨⟨⟩⟩
      · exact (hhere.offer (.expression ht)).woven
      · have hname := (hafter.offer (.pattern ht)).woven
        have hsuffix := (hhere.offer (.expression rfl)).woven.suffix
        have heq : after.previous.length = s'.previous.length := by simp at hlength; exact hlength.2
        rwa [(List.suffix_of_suffix_length_le hname.suffix hsuffix (Nat.le_of_eq heq)).eq_of_length heq] at hname
  refine .orElse (.ite (fun _ => .textAhead fun s' hs' => ?_) fun _ => .ite (fun _ => ?_) fun _ => ?_) hname
  · have hstart : Woven drops cs kept s'.start := hs'.before.woven
    have here : Before drops s'.start [] s' := ⟨hs'.lexed, .start⟩
    generalize s'.start = start at hstart here ⊢
    refine .of (fun _ he => he ▸ here) (.bind (primary_weaves hread) fun first => ?_)
    extract_lets chained
    have hchained (goesOn : Bool) : Leads (PastReading drops start [] first) (chained goesOn) (PastReading drops cs kept) := by
      refine .bind (suffixes_weaves hread fuel)
        fun r => .of (fun _ h => h.behind hstart) (.bind (assigned_weaves hread) fun r' => ?_)
      exact .bind (.pure fun _ h => h) hfinish
    exact .ite (fun _ => .look hchained) fun _ => .bind (.pure fun _ h => h) hchained
  · exact .next (hread.unary _ _ _) fun r => .bind (.pure fun _ h => h) hfinish
  · exact .next (hread.unary _ _ _) fun r => .bind (.pure fun _ h => h) hfinish

/-! ## Unary operators -/

omit hread in
theorem leaves_updateExpression (operator : String) (before : Bool) (e : Tree) :
    leaves (.mk (.updateExpression operator before e)) = e.leaves := by
  simp [leaves_node (n := .updateExpression operator before e) rfl rfl, Node.children, Node.fields]

theorem prefixUpdate_weaves {operator : String} : Leads (fun s => Before drops cs kept s ∧ s.token = .punct operator)
    (prefixUpdate read fuel mode operator) (PastReading drops cs kept) := by
  refine .textAhead fun s h => ?_
  have here : Before drops s.start [] s := ⟨h.1.lexed, .start⟩
  refine .advance (S := Past drops s.start []) (fun _ he => he ▸ here.punct h.2) (.pass fun _ => .look fun token => ?_)
  extract_lets nested plain waiting finish
  have hplain : Leads (Past drops s.start []) plain (PastReading drops s.start []) :=
    .next (operand_weaves hread) fun _ => assigned_weaves hread
  have hwaiting : Leads (Past drops s.start []) waiting (PastReading drops s.start []) := by
    refine .next (hread.unary _ _ _) fun r => ?_
    split
    next => exact .pure fun _ h => h
    next => exact .failure
    next => exact .pure fun _ h => h
  have hfinish (r : Reading) : Leads (PastReading drops s.start [] r) (finish r) (PastReading drops cs kept) := by
    refine .requireBind fun e he => .mono (.of (fun s' h' => ?_) (suffixes_weaves hread fuel)) fun _ _ hr => hr.behind h.1.woven
    exact .ofExpression (by simpa [leaves_updateExpression] using h'.closed he)
  exact .ite (fun _ => .bind (.orElse hwaiting hplain) hfinish) fun _ => .bind hplain hfinish

omit hread in
/-- An operator before an operand is passed. -/
theorem unaryOperator_passed {t : Token} {operator : String} {s : State} (h : Before drops cs kept s) (ht : s.token = t)
    (ho : unaryOperator? t = some operator) : Past drops cs kept s.next := by
  cases t with
  | word w =>
    rw [unaryOperator?] at ho
    split at ho
    next hw =>
      refine h.keyword ht ?_
      simp only [List.contains_cons, List.contains_nil, Bool.or_false, Bool.or_eq_true, beq_iff_eq] at hw
      rcases hw with rfl | rfl | rfl <;> decide
    next => cases ho
  | punct p => exact h.punct ht
  | _ => cases ho

theorem unary_weaves : Leads (Before drops cs kept) (unary read fuel mode) (PastReading drops cs kept) := by
  refine .peek fun token => ?_
  split
  next => exact .bind (prefixUpdate_weaves hread) fun _ => assigned_weaves hread
  next => exact .bind (prefixUpdate_weaves hread) fun _ => assigned_weaves hread
  next => exact .bind (awaited_weaves hread) fun _ => assigned_weaves hread
  next => exact .bind (yielded_weaves hread) fun _ => assigned_weaves hread
  next name =>
    refine .advance (fun _ h => h.1.privateName h.2) (.pass fun _ => .next (.word (by decide)) fun _ => ?_)
    refine .next (hread.operation _ _ _ _) fun r => .requireBind fun right hright => .pure fun s h => ?_
    exact .ofExpression ((h.closed hright).node (by simp [Node.children, Node.fields, leaves_privateIdentifier]) rfl rfl)
  next =>
    split
    next operator ho =>
      refine .advance (fun _ h => unaryOperator_passed h.1 h.2 ho) (.next (hread.unary _ _ _) fun r => ?_)
      refine .requireBind fun e he => .pure fun s h => ?_
      exact .ofExpression ((h.closed he).node (by simp [Node.children, Node.fields]) rfl rfl)
    next => exact .of (fun _ h => h.1) (.bind (operand_weaves hread) fun _ => assigned_weaves hread)

/-! ## Binary operators -/

omit hread in
theorem operatorLevel_passed {t : Token} {operator : String} {level : Nat} {s : State} (h : Before drops cs kept s)
    (ht : s.token = t) (ho : operatorLevel? mode t = some (operator, level)) : Past drops cs kept s.next := by
  cases t with
  | word w =>
    rw [operatorLevel?] at ho
    split at ho
    next hw =>
      refine h.keyword ht ?_
      simp only [Bool.or_eq_true, decide_eq_true_eq, Bool.and_eq_true] at hw
      rcases hw with rfl | ⟨rfl, -⟩ <;> decide
    next => cases ho
  | punct p => exact h.punct ht
  | _ => cases ho

omit hread in
theorem leaves_operationTree (operator : String) (left right : Tree) :
    (operationTree operator left right).leaves = left.leaves ++ right.leaves := by
  rw [operationTree]
  split
  · simp [leaves_node (n := .logicalExpression operator left right) rfl rfl, Node.children, Node.fields]
  · simp [leaves_node (n := .binaryExpression operator left right) rfl rfl, Node.children, Node.fields]

omit hread in
theorem nextToken_question {rest : List Char} (h : loneQuestion rest = true) :
    nextToken ('?' :: rest) = (.punct "?", rest) := by
  cases rest with
  | nil => rfl
  | cons c rest =>
    have hp : punctuator? ('?' :: c :: rest) = some ['?'] := by
      by_cases hc : c = '.'
      · subst hc
        cases rest with
        | nil => cases h
        | cons d rest => simpa [punctuator?, loneQuestion] using h
      · have hq : c ≠ '?' := by
          rintro rfl
          cases h
        have hq' : ('?' == c) = false := by simpa using hq.symm
        have hc' : ('.' == c) = false := by simpa using (Ne.symm hc)
        rw [punctuator?]
        · simp [punctuators, List.find?, List.isPrefixOf, hq', hc']
        · rintro d rest h
          cases h
          contradiction
    rw [nextToken]
    simp [hp, Unicode.isAsciiDigit]

omit hread in
/-- The mark of a conditional is passed. -/
theorem questionAhead_passed : Leads (Past drops cs kept) mode.questionAhead? fun o s =>
    Past drops cs kept s ∧ ∀ rest, o = some rest → Past drops cs kept (.ofText true rest) := by
  refine .get fun s h => .pure fun s' he => ⟨he ▸ h, fun rest hrest => ?_⟩
  have onward {rest : List Char} (h : Woven drops cs kept rest) : Past drops cs kept (.ofText true rest) :=
    ⟨State.ofText_lexed true rest, h⟩
  split at hrest
  next =>
    split at hrest
    next htoken =>
      cases hrest
      exact onward (h.before.punct htoken).woven
    next htoken htext =>
      split at hrest
      next hlone =>
        cases hrest
        have hslash := (h.before.punct htoken).woven
        refine onward (hslash.passed (.punctuator (p := "?") ?_))
        change nextToken s.rest = _
        rw [htext]
        rw [Bool.and_eq_true] at hlone
        exact nextToken_question hlone.2
      next => cases hrest
    next => cases hrest
  next => cases hrest

/-- What was passed first to see how far the operand goes does not matter. -/
theorem namedOperation_weaves {before : List String} {pass : Read Unit} {more : Reading → Read Reading}
    (hmore : ∀ r, Leads (PastReading drops cs before r) (more r) (PastReading drops cs kept)) :
    Leads (Before drops cs before) (namedOperation read fuel mode pass more) (PastReading drops cs kept) := by
  refine .guardBind fun _ => .get fun s h => .bind (Q := fun _ _ => True) (fun _ _ _ _ _ => trivial) fun _ => ?_
  refine .bind (Q := fun _ _ => True) (fun _ _ _ _ _ => trivial) fun _ => .set h (.bind (unary_weaves hread) fun first => ?_)
  exact .bind (hmore first) fun _ => .look fun _ => .guardBind fun _ => .pure fun _ h => h

theorem operationRest_weaves {least : Nat} {signed : Bool} (n : Nat) {left : Reading} :
    Leads (PastReading drops cs kept left) (operationRest read fuel mode least signed n left) (PastReading drops cs kept) := by
  induction n generalizing left with
  | zero => exact .failure
  | succ n ih =>
    refine .look fun _ => .ite (fun _ => .pure fun _ h => h) fun _ => ?_
    split
    next => exact .pure fun _ h => h
    next l hl =>
      refine .of (fun _ h => ⟨h, h.closed hl⟩) (.bind (.and .passed questionAhead_passed) fun asks => .peek fun token => ?_)
      have unchanged {P : State → Prop} (hP : ∀ s, P s → PastReading drops cs kept left s) :
          Leads P (pure left) (PastReading drops cs kept) :=
        .pure hP
      split
      next rest =>
        refine .ite (fun _ => ?_) fun _ => unchanged fun _ h => h.1.1
        refine .goTo (fun s h => (h.1.2.2 rest rfl).before) (.bind (expressionTree_weaves hread) fun yes => .pass fun _ => ?_)
        refine .next (expressionTree_weaves hread) fun no => .pure fun s h => .ofExpression (h.node ?_ rfl rfl)
        simp [Node.children, Node.fields]
      next operator level ho =>
        refine .ite (fun _ => unchanged fun _ h => h.1.1) fun _ => ?_
        refine .advance (S := Past drops cs (kept ++ l.leaves)) (fun s h => operatorLevel_passed h.1.2.1.before h.2 ho) ?_
        extract_lets more role plain
        -- whatever the right operand is, it stands behind the operator, and reading goes on
        have hmore (r : Reading) : Leads (PastReading drops cs (kept ++ l.leaves) r) (more r) (PastReading drops cs kept) := by
          refine .requireBind fun right hright => .of (fun s h => .ofExpression ?_) ih
          rw [leaves_operationTree, ← List.append_assoc]
          exact h.closed hright
        have hplain : Leads (Before drops cs (kept ++ l.leaves)) plain (PastReading drops cs kept) :=
          .bind (hread.operation _ _ _ _) hmore
        refine .here (.ite (fun _ => hplain) fun _ => .orElse ?_ (.orElse ?_ hplain))
        · exact namedOperation_weaves hread hmore
        · exact .guardBind fun _ => namedOperation_weaves hread hmore
      next => exact unchanged fun _ h => h.1.1

theorem operation_weaves {least : Nat} :
    Leads (Before drops cs kept) (operation read fuel mode least) (PastReading drops cs kept) := by
  refine .look fun _ => .look fun _ => ?_
  extract_lets signed named plain
  have hrest (signed : Bool) (r : Reading) :
      Leads (PastReading drops cs kept r) (operationRest read fuel mode least signed fuel r)
      (PastReading drops cs kept) := operationRest_weaves hread fuel
  refine .orElse ?_ (.orElse ?_ (.bind (unary_weaves hread) fun r => hrest _ r))
  · exact .guardBind fun _ => namedOperation_weaves hread (hrest _)
  · exact .guardBind fun _ => .guardBind fun _ => namedOperation_weaves hread (hrest _)

end Operations
end Graft.Source
