import Graft.Proofs.Source.Members
import Graft.Source.Expression
/-!
# Expressions fit their slots

Operands, what follows them, and operations: each way to take what is read fits the slot that it is for.
-/

namespace Graft.Source

open Read Graft.Tree

/-! ## Operands -/

theorem memberName_fits : Gives memberName (Tree.Fills .memberName) := by
  refine .after fun s => .after fun _ => ?_
  split
  next w _ => exact .pure (fits_identifier w rfl)
  next => exact .pure (.node rfl rfl nofun)
  next => exact .failure

theorem ofName_fits (name : String) : (Reading.ofReference (identifierTree name)).Fits := by
  have hname := fits_identifier name (σ := .expression) rfl
  exact .ofReference hname.chained rfl

theorem ofVerbatim_fits (text : String) (kind : OperandKind) : (Reading.ofExpression (.mk (.verbatim text)) kind).Fits :=
  .ofExpression (fits_verbatim text rfl)

/-- A member access may stand left of an assignment, its chain closed. -/
theorem ofMember_fits {object member : Tree} {computed optional : Bool} (ho : object.Chained)
    (hm : Tree.Fills (if computed then .expression else .memberName) member) :
    (Reading.ofReference (.mk (.memberExpression object member computed optional))).Fits := by
  refine .ofReference (ho.member hm) ?_
  rw [closeChain]
  split <;> rfl

section Operands
variable {read : Readers} {fuel : Nat} {mode : Mode} (hread : FitReaders read)
include hread

theorem indexed_fits {object : Tree} {optional : Bool} (ho : object.Chained) :
    Gives (indexed read fuel object optional) Reading.Fits :=
  .after fun _ => .bind (expressions_fits hread) fun _ hi => .after fun _ => .pure (ofMember_fits ho hi)

theorem called_fits {callee : Tree} {optional : Bool} (hc : callee.Chained) :
    Gives (called read fuel callee optional) Reading.Fits :=
  .bind (arguments_fits hread) fun _ hargs => .pure (.ofChain (hc.call hargs))

omit hread in
theorem regex_fits : Gives (regex mode) Reading.Fits :=
  .after fun _ => .after fun _ => .after fun _ => .after fun _ => .after fun _ => .pure (.ofExpression (.node rfl rfl nofun))

theorem parenthesized_fits : Gives (parenthesized read fuel mode) Reading.Fits := by
  refine .after fun _ => .bind (itemsUntil_fits hread fuel false nofun) fun p hp => ?_
  have hes : ∀ t ∈ (p.1.mapM fun (i : Option Item) => i.bind Item.value?).getD [], Tree.Fills .expression t := by
    intro t ht
    cases hv : p.1.mapM fun (i : Option Item) => i.bind Item.value? with
    | none =>
      rw [hv] at ht
      cases ht
    | some es =>
      rw [hv] at ht
      obtain ⟨o, ho, he⟩ := mapM_mem hv ht
      obtain ⟨i, rfl, hi⟩ := Option.bind_eq_some_iff.1 he
      exact fits_value (hp i ho) t hi
  dsimp only
  refine .skip (.after fun _ => .ite ?_ (.after fun _ => ?_))
  · exact .bind (.require fun _ hts => fits_parametersOf hp hts) fun _ hps => arrowRest_fits hread hps
  · split
    next => exact .failure
    next e h => exact .pure (.ofParenthesized (hes e (by simp [h])))
    next => exact .pure (.ofParenthesized (.node rfl rfl (by grind [Node.places])))

theorem async_fits {calls : Bool} : Gives (async read fuel mode calls) Reading.Fits := by
  have name := ofName_fits "async"
  refine .after fun _ => .after fun _ => .ite (.pure name) (.after fun token => ?_)
  split
  next => exact .bind (functionRest_fits hread) fun _ hf => .pure (.ofExpression (.node rfl rfl hf))
  next w _ =>
    refine .after fun _ => .ite (.pure name) (.after fun _ => .after fun _ => arrowRest_fits hread ?_)
    simpa using fits_identifier w rfl
  next =>
    refine .after fun _ => .after fun _ => .bind (itemsUntil_fits hread fuel false nofun) fun p hp => ?_
    refine .skip (.after fun _ => .ite ?_ (.ite ?_ (.after fun _ => .pure name)))
    · exact .bind (.require fun _ hts => fits_parametersOf hp hts) fun _ hps => arrowRest_fits hread hps
    · refine .bind (.require fun _ hts => fits_argumentsOf hp hts) fun args hargs => .pure (.ofChain ?_)
      have hname := fits_identifier "async" (σ := .expression) rfl
      exact hname.chained.call hargs
  next => exact arrowRest_fits hread (by simpa using fits_identifier "async" rfl)
  next => exact .pure name

theorem nameOperand_fits {name : String} : Gives (nameOperand read fuel mode name) Reading.Fits := by
  have h := ofName_fits name
  refine .after fun _ => .ite (.pure ⟨h.expression, h.pattern, h.defaulted, h.target⟩) (.after fun _ => .after fun _ => .ite ?_ (.pure h))
  exact arrowRest_fits hread (by simpa using fits_identifier name rfl)

theorem wordOperand_fits {calls : Bool} {w : String} : Gives (wordOperand read fuel mode calls w) Reading.Fits := by
  have literal (value : LiteralValue) : Gives (do advance; return .ofExpression (.mk (.literal value w)) .primary)
      Reading.Fits := .after fun _ => .pure (.ofExpression (.node rfl rfl nofun))
  have himport := fits_verbatim "import" (σ := .expression) rfl
  unfold wordOperand
  split
  next => exact .after fun _ => .pure (.ofExpression (.node rfl rfl nofun))
  next => exact .after fun _ => .pure (.ofExpression (.node rfl rfl nofun))
  next => exact literal _
  next => exact literal _
  next => exact literal _
  next => exact .bind (functionRest_fits hread) fun _ hf => .pure (.ofExpression (.node rfl rfl hf))
  next => exact .bind (classRest_fits hread) fun _ hc => .pure (.ofExpression (.node rfl rfl hc))
  next => exact async_fits hread
  next =>
    refine .after fun _ => .after fun _ => .after fun _ => .after fun _ => .ite ?_ (.after fun _ => .ite ?_ ?_)
    · exact .after fun _ => .after fun _ => .after fun text => .pure (ofVerbatim_fits text _)
    · exact .bind memberName_fits fun _ hm => .pure (ofMember_fits himport.chained hm)
    · exact called_fits hread himport.chained
  next => exact .after fun _ => nameOperand_fits hread

theorem primary_fits {calls : Bool} : Gives (primary read fuel mode calls) Reading.Fits := by
  refine .after fun _ => .after fun token => ?_
  split
  next => exact wordOperand_fits hread
  next => exact nameOperand_fits hread
  next raw => exact .after fun _ => .pure (.ofExpression (fits_numberTree raw (.inl rfl)))
  next raw => exact .after fun _ => .pure (.ofExpression (fits_stringTree raw (.inl rfl)))
  next => exact .after fun _ => .after fun text => .pure (ofVerbatim_fits text _)
  next => exact parenthesized_fits hread
  next => exact array_fits hread
  next => exact object_fits hread
  next => exact regex_fits
  next => exact regex_fits
  next => exact .after fun _ => .bind (classRest_fits hread) fun _ hc => .pure (.ofExpression (.node rfl rfl hc))
  next => exact .after fun _ => .after fun _ => .pure (ofVerbatim_fits _ _)
  next => exact .failure

/-! ## Chains -/

omit hread in
theorem updated_fits {r : Reading} {operator : String} (hr : r.Fits) : Gives (updated r operator) Reading.Fits :=
  .bind (.require hr.closed) fun _ he => .after fun _ => .pure (.ofExpression (.node rfl rfl (by grind [Node.places])))

theorem suffixes_fits {start : List Char} {calls updates : Bool} (n : Nat) {r : Reading} (hr : r.Fits) :
    Gives (suffixes read fuel mode start calls updates n r) Reading.Fits := by
  induction n generalizing r with
  | zero => exact .failure
  | succ n ih =>
    refine .after fun _ => .ite (.pure hr) (.after fun token => ?_)
    split
    next e he =>
      have he : e.Chained := hr.expression e he
      exact .after fun _ => .bind memberName_fits fun _ hm => ih (ofMember_fits he hm)
    next e he =>
      have he : e.Chained := hr.expression e he
      refine .after fun _ => .after fun token => ?_
      split
      next => exact .bind (indexed_fits hread he) fun _ h => ih h
      next => exact .after fun _ => .bind (called_fits hread he) fun _ h => ih h
      next => exact .bind memberName_fits fun _ hm => ih (ofMember_fits he hm)
    next e he => exact .bind (indexed_fits hread (hr.expression e he)) fun _ h => ih h
    next e he => exact .ite (.bind (called_fits hread (hr.expression e he)) fun _ h => ih h) (.pure hr)
    next => exact .after fun _ => .after fun _ => .after fun text => ih (ofVerbatim_fits text _)
    next => exact .ite (.bind (updated_fits hr) fun _ h => ih h) (.pure hr)
    next => exact .ite (.bind (updated_fits hr) fun _ h => ih h) (.pure hr)
    next => exact .pure hr

theorem construction_fits (n : Nat) : Gives (construction read fuel mode n) Reading.Fits := by
  induction n with
  | zero => exact .failure
  | succ n ih =>
    have goOn {start : List Char} {r : Reading} (hr : r.Fits) :
        Gives (suffixes read fuel mode start false false fuel r) Reading.Fits := suffixes_fits hread fuel hr
    refine .after fun _ => .after fun _ => .after fun _ => .ite ?_ (.after fun start => .after fun _ => ?_)
    · exact .after fun _ => .after fun _ => .after fun text => .pure (ofVerbatim_fits text _)
    · have made (r : Reading) (hr : r.Fits) : Gives (do
          guardThat (r.kind ≠ .other)
          let callee ← require r.closed?
          let args ← if !(← mode.stops) && (← isPunct "(") then arguments read fuel else pure []
          return .ofExpression (.mk (.newExpression callee args)) .construction) Reading.Fits := by
        have tree {callee : Tree} (hc : Tree.Fills .expression callee) (args : List Tree) (hargs : ∀ t ∈ args, Tree.Fills .item t) :
            Gives (pure (.ofExpression (.mk (.newExpression callee args)) .construction)) Reading.Fits :=
          .pure (.ofExpression (.node rfl rfl (by grind [Node.places])))
        refine .after fun _ => .bind (.require hr.closed) fun _ hc => .after fun _ => .after fun _ => ?_
        exact .iteBind (arguments_fits hread) (.pure (List.forall_mem_nil _)) (tree hc)
      refine .ite (.bind ih fun o ho => .after fun _ => .after fun _ => .iteBind (goOn ho) (.pure ho) made) ?_
      refine .bind (primary_fits hread) fun o ho => .after fun _ => .ite ?_ (.bind (goOn ho) made)
      exact .bind (.require ho.closed) fun _ he => .bind (called_fits hread he.chained) fun _ hc => .bind (goOn hc) made

theorem operand_fits {updates : Bool} : Gives (operand read fuel mode updates) Reading.Fits :=
  .after fun _ => .after fun _ => .iteBind (construction_fits hread fuel) (primary_fits hread) fun _ hr =>
    suffixes_fits hread fuel hr

/-! ## Assignments -/

theorem assigned_fits {r : Reading} (hr : r.Fits) : Gives (assigned read mode r) Reading.Fits := by
  have assignment {left right : Tree} (operator : String) (hl : Tree.Fills .target left) (h : Tree.Fills .expression right) :
      Tree.Fills .expression (.mk (.assignmentExpression operator left right)) := .node rfl rfl (by grind [Node.places])
  refine .after fun _ => .ite (.pure hr) (.after fun token => ?_)
  split
  next left hleft =>
    refine .after fun _ => .bind (expressionTree_fits hread) fun right hright => .pure ⟨?_, fits_none, ?_, fits_none⟩
    · rintro _ ⟨⟩
      exact (assignment "=" (hr.target left hleft) hright).chained
    · intro t ht
      obtain ⟨p, hp, rfl⟩ := Option.map_eq_some_iff.1 ht
      have hp : Tree.Fills .pattern p := hr.pattern p hp
      exact .node rfl rfl (by grind [Node.places])
  next left _ hleft =>
    split
    next operator _ =>
      refine .after fun _ => .after fun _ => .bind (expressionTree_fits hread) fun right hright => .pure (.ofExpression ?_)
      exact assignment operator (hr.target left hleft) hright
    next => exact .pure hr
  next => exact .pure hr

/-! ## `yield` and `await` -/

theorem yielded_fits : Gives (yielded read fuel mode) Reading.Fits := by
  have made (text : String) := ofVerbatim_fits text .other
  refine .after fun _ => .after fun _ => .after fun _ => .after fun _ => .after fun _ => .after fun _ => ?_
  have given (start : List Char) (follows : Bool) : Gives (do
      let r := Reading.ofExpression (.mk (.verbatim (← sourceFrom start))) .other
      if follows then return r else suffixes read fuel mode start true true fuel r) Reading.Fits :=
    .after fun text => .ite (.pure (made text)) (suffixes_fits hread fuel (made text))
  exact .after fun _ => .after fun _ => .ite (.after fun _ => .after fun _ => given _ _) (given _ _)

theorem awaited_fits : Gives (awaited read fuel mode) Reading.Fits := by
  refine .after fun s => ?_
  have asName : Gives (do set s; operand read fuel mode true) Reading.Fits := .after fun _ => operand_fits hread
  refine .after fun _ => .after fun _ => .after fun _ => .after fun _ => .after fun _ => .after fun _ => .after fun next => ?_
  dsimp only
  refine .ite asName (.after fun _ => .ite asName (.after fun _ => .ite asName (.orElse ?_ asName)))
  -- Whatever follows the word, it is read with what goes on, and then the two readings are weighed.
  refine .ite (.after fun _ => .bind (primary_fits hread) fun _ hf => .iteAfter fun _ => .bind (suffixes_fits hread fuel hf)
    fun _ hr => .bind (assigned_fits hread hr) fun _ ha => .bind (.pure (P := fun p => p.1.Fits) ha) ?_)
    (.ite (.bind (hread.unary _) fun _ ha => .bind (.pure (P := fun p => p.1.Fits) ha) ?_)
      (.bind (hread.unary _) fun _ ha => .bind (.pure (P := fun p => p.1.Fits) ha) ?_))
  all_goals
    intro p hp
    refine .bind (.require hp.closed) fun e he => ?_
    have waits : (Reading.ofExpression (.mk (.awaitExpression e)) .other).Fits :=
      .ofExpression (.node rfl rfl (by grind [Node.places]))
    refine .after fun _ => .ite (.pure waits) ?_
    split
    next => exact .pure waits
    next name after h =>
      have hname : name.Fits := asName _ _ _ h
      refine .ite (.after fun _ => .pure hname) (.ite (.pure ⟨waits.expression, hname.pattern, fits_none, fits_none⟩) (.pure waits))

/-! ## Unary operators -/

theorem prefixUpdate_fits {operator : String} : Gives (prefixUpdate read fuel mode operator) Reading.Fits := by
  have updated (r : Reading) (start : List Char) (hr : r.Fits) : Gives (do
      let e ← require r.closed?
      suffixes read fuel mode start true true fuel (.ofExpression (.mk (.updateExpression operator true e)) .other))
      Reading.Fits :=
    .bind (.require hr.closed) fun _ he => suffixes_fits hread fuel (.ofExpression (.node rfl rfl (by grind [Node.places])))
  have plain : Gives (do assigned read mode.behind (← operand read fuel mode false)) Reading.Fits :=
    .bind (operand_fits hread) fun _ hr => assigned_fits hread hr
  refine .after fun _ => .after fun _ => .after fun _ => .after fun t => ?_
  refine .iteBind (.orElse (.bind (hread.unary _) fun r hr => ?_) plain) plain (fun r hr => updated r _ hr)
  split
  next => exact .pure hr
  next => exact .failure
  next => exact .pure hr

theorem unary_fits : Gives (unary read fuel mode) Reading.Fits := by
  refine .after fun token => ?_
  split
  next => exact .bind (prefixUpdate_fits hread) fun _ hr => assigned_fits hread hr
  next => exact .bind (prefixUpdate_fits hread) fun _ hr => assigned_fits hread hr
  next => exact .bind (awaited_fits hread) fun _ hr => assigned_fits hread hr
  next => exact .bind (yielded_fits hread) fun _ hr => assigned_fits hread hr
  next name =>
    refine .after fun _ => .after fun _ => .after fun _ => .bind (hread.operation _ _) fun _ hr => ?_
    refine .bind (.require hr.closed) fun right hright => .pure (.ofExpression (.node rfl rfl ?_))
    have hname : Tree.Fills .subject (.mk (.privateIdentifier name)) := .node rfl rfl nofun
    grind [Node.places]
  next =>
    split
    next =>
      refine .after fun _ => .bind (hread.unary _) fun _ hr => .bind (.require hr.closed) fun _ he => ?_
      exact .pure (.ofExpression (.node rfl rfl (by grind [Node.places])))
    next => exact .bind (operand_fits hread) fun _ hr => assigned_fits hread hr

/-! ## Binary operators -/

omit hread in
theorem fits_operationTree {operator : String} {left right : Tree} (hl : Tree.Fills .expression left)
    (hr : Tree.Fills .expression right) : Tree.Fills .expression (operationTree operator left right) := by
  rw [operationTree]
  split
  next => exact .node rfl rfl (by grind [Node.places])
  next =>
    have hslot : Tree.Fills (if operator = "in" then .subject else .expression) left := by
      split
      next => exact hl.ofExpression rfl
      next => exact hl
    exact .node rfl rfl (by grind [Node.places])

theorem namedOperation_fits {pass : Read Unit} {more : Reading → Read Reading}
    (hmore : ∀ r : Reading, r.Fits → Gives (more r) Reading.Fits) : Gives (namedOperation read fuel mode pass more) Reading.Fits :=
  .after fun _ => .after fun _ => .after fun _ => .after fun _ => .after fun _ => .bind (unary_fits hread) fun _ hr =>
    .bind (hmore _ hr) fun _ h => .after fun _ => .after fun _ => .pure h

theorem operationRest_fits {least : Nat} {signed : Bool} (n : Nat) {left : Reading} (hleft : left.Fits) :
    Gives (operationRest read fuel mode least signed n left) Reading.Fits := by
  induction n generalizing left with
  | zero => exact .failure
  | succ n ih =>
    refine .after fun _ => .ite (.pure hleft) ?_
    split
    next => exact .pure hleft
    next l hl =>
      have hl : Tree.Fills .expression l := hleft.closed l hl
      refine .after fun _ => .after fun _ => ?_
      split
      next =>
        refine .ite (.after fun _ => .bind (expressionTree_fits hread) fun _ hyes => .after fun _ =>
          .bind (expressionTree_fits hread) fun _ hno => ?_) (.pure hleft)
        exact .pure (.ofExpression (.node rfl rfl (by grind [Node.places])))
      next operator level _ =>
        have more (right : Reading) (hright : right.Fits) : Gives (do
            let r ← require right.closed?
            operationRest read fuel mode least signed n (.ofExpression (operationTree operator l r) .other)) Reading.Fits :=
          .bind (.require hright.closed) fun _ hr => ih (.ofExpression (fits_operationTree hl hr))
        have plain (mode : Mode) (least : Nat) := (hread.operation mode least).bind more
        refine .ite (.pure hleft) (.after fun _ => .ite (plain _ _) ?_)
        exact .orElse (namedOperation_fits hread more) (.orElse (.after fun _ => namedOperation_fits hread more) (plain _ _))
      next => exact .pure hleft

theorem operation_fits {least : Nat} : Gives (operation read fuel mode least) Reading.Fits := by
  refine .after fun _ => .after fun _ => ?_
  have named (least' : Nat) (signed : Bool) (pass : Read Unit) : Gives (do
      guardThat (least ≤ least')
      namedOperation read fuel mode pass fun first => operationRest read fuel mode least signed fuel first) Reading.Fits :=
    .after fun _ => namedOperation_fits hread fun _ hr => operationRest_fits hread fuel hr
  refine .orElse (named _ _ _) (.orElse (.after fun _ => named _ _ _) ?_)
  exact .bind (unary_fits hread) fun _ hr => operationRest_fits hread fuel hr

end Operands
end Graft.Source
