import Graft.Proofs.Print.Formed
import Graft.Proofs.Print.Containment
import Graft.Source.Program
/-!
# Opaque operands

Templates, `yield`, big integers and the like are kept as the text they have in the source, without the parentheses around them. A
`Frame` is an expression, or the head of a loop, with a place for one operand. Whatever opaque text stands there, what is printed
around it is the same, and the text itself is printed as it is or in parentheses. The grammar then takes it for one operand with
three exceptions (`Frame.kept_operand`): the callee of `new` that holds a call, as a template whose tag is called does, the body
of an arrow that begins with a brace, and the first clause of a loop that holds an `in`. The printer knows none of the three from the
first letters of a text, and the first is enough to turn a program into another one (`Frame.called_tag_lost`).
-/

namespace Graft

open Grammar
open Piece (blank leaf line mark)

/-- An opaque expression as the grammar sees it: the nonterminal that its text comes from, and whether an `in` stands in it outside of
brackets. Only `yield` binds looser than a call. -/
structure Kept where
  text : String
  symbol : Symbol
  bareIn : Bool
  known : symbol ∈ [.primary, .member, .call] ∨ symbol = .assignment ∧ "yield".toList.isPrefixOf text.toList = true

/-- An expression without one of its operands, or a counting loop without its first clause. -/
inductive Frame where
  | callee (arguments : List Tree) (optional : Bool)
  | argument (callee : Tree) (before after : List Tree) (optional : Bool)
  | newCallee (arguments : List Tree)
  | newArgument (callee : Tree) (before after : List Tree)
  | object (member : Tree) (computed optional : Bool)
  | index (object : Tree) (optional : Bool)
  | unary (operator : String)
  | await
  | binaryLeft (operator : String) (right : Tree)
  | binaryRight (operator : String) (left : Tree)
  | logicalLeft (operator : String) (right : Tree)
  | logicalRight (operator : String) (left : Tree)
  | assigned (operator : String) (target : Tree)
  | test (yes no : Tree)
  | yes (test no : Tree)
  | no (test yes : Tree)
  | element (before after : List Tree)
  | item (before after : List (Option Tree))
  | spread
  | value (key : Tree) (computed : Bool)
  | key (value : Tree)
  | default (pattern : Tree)
  | body (params : List Tree) (isAsync : Bool)
  | heritage (id : Option Tree) (members : Tree)
  | clause (test update : Option Tree) (body : Tree)

namespace Frame

/-- The expression with the operand in its place. -/
def plug : Frame → Tree → Tree
  | .callee arguments optional, t => .mk (.callExpression t arguments optional)
  | .argument f before after optional, t => .mk (.callExpression f (before ++ t :: after) optional)
  | .newCallee arguments, t => .mk (.newExpression t arguments)
  | .newArgument f before after, t => .mk (.newExpression f (before ++ t :: after))
  | .object member computed optional, t => .mk (.memberExpression t member computed optional)
  | .index e optional, t => .mk (.memberExpression e t true optional)
  | .unary operator, t => .mk (.unaryExpression operator t)
  | .await, t => .mk (.awaitExpression t)
  | .binaryLeft operator right, t => .mk (.binaryExpression operator t right)
  | .binaryRight operator left, t => .mk (.binaryExpression operator left t)
  | .logicalLeft operator right, t => .mk (.logicalExpression operator t right)
  | .logicalRight operator left, t => .mk (.logicalExpression operator left t)
  | .assigned operator target, t => .mk (.assignmentExpression operator target t)
  | .test y n, t => .mk (.conditionalExpression t y n)
  | .yes e n, t => .mk (.conditionalExpression e t n)
  | .no e y, t => .mk (.conditionalExpression e y t)
  | .element before after, t => .mk (.sequenceExpression (before ++ t :: after))
  | .item before after, t => .mk (.arrayExpression (before ++ some t :: after))
  | .spread, t => .mk (.spreadElement t)
  | .value name computed, t => .mk (.property name t .init computed false false)
  | .key e, t => .mk (.property t e .init true false false)
  | .default pattern, t => .mk (.assignmentPattern pattern t)
  | .body params isAsync, t => .mk (.arrowFunctionExpression ⟨none, params, t, isAsync, false⟩)
  | .heritage id members, t => .mk (.classExpression ⟨id, some t, members⟩)
  | .clause e update s, t => .mk (.forStatement (some t) e update s)

/-! ## What the grammar asks of an operand -/

/-- The productions for an operator. -/
def operations (operator : String) : List Grammar.Operation := (binaries ++ logicals).filter fun o => operator ∈ o.operators

/-- The nonterminals that the operand may come from. -/
def asks : Frame → List Symbol
  | .callee .. | .object .. => [.member, .call, .optional]
  | .newCallee _ => [.member]
  | .unary _ | .await => [.unary]
  | .binaryLeft operator _ | .logicalLeft operator _ => (operations operator).map (·.left)
  | .binaryRight operator _ | .logicalRight operator _ => (operations operator).map (·.right)
  | .test .. => [.shortCircuit]
  | .heritage .. => [.leftHandSide]
  | .index .. | .clause .. => [.expression]
  | _ => [.assignment]

/-- An operand that may not begin with a brace. -/
def refusesBrace : Frame → Bool
  | .body .. => true
  | _ => false

/-- An operand that may have no `in` outside of brackets. -/
def refusesIn : Frame → Bool
  | .clause .. => true
  | _ => false

/-- The operators are those of the language. -/
def IsLegal : Frame → Prop
  | .binaryLeft operator _ | .binaryRight operator _ => operator ∈ binaryOperators
  | .logicalLeft operator _ | .logicalRight operator _ => operator ∈ logicalOperators
  | _ => True

/-- The pieces are the opaque text as one operand: the text itself where the grammar takes it as it is, or the text in parentheses. -/
def Keeps (F : Frame) (k : Kept) (shown : Pieces) : Prop :=
  shown = [.leaf k.text] ∧ (∃ s ∈ F.asks, Reaches s k.symbol) ∧ (F.refusesBrace = true → k.text.toList.head? ≠ some '\x7b') ∧
      (F.refusesIn = true → k.bareIn = false) ∨
    shown = [.mark "(", .leaf k.text, .mark ")"] ∧ (∃ s ∈ F.asks, Reaches s .primary) ∧ Reaches .expression k.symbol

/-! ## What is printed -/

/-- The least level of an operand that is printed without parentheses. -/
def least : Frame → Nat
  | .callee .. | .newCallee _ | .object .. | .heritage .. => Level.call
  | .unary _ | .await => Level.unary
  | .binaryLeft operator _ | .logicalLeft operator _ =>
    if operator = "**" then Level.ofOperator operator + 1 else Level.ofOperator operator
  | .binaryRight operator _ | .logicalRight operator _ =>
    if operator = "**" then Level.ofOperator operator else Level.ofOperator operator + 1
  | .test .. => Level.nullish
  | .index .. | .clause .. => Level.sequence
  | _ => Level.assign

/-- An opaque text with the parentheses that its place puts around it. -/
def shown (F : Frame) (text : String) : Pieces :=
  if (Tree.mk (.verbatim text)).level < F.least then [.mark "(", .leaf text, .mark ")"] else [.leaf text]

/-- The texts that do not come out as one operand. -/
def Loses (k : Kept) : Frame → Prop
  | .newCallee _ => k.symbol = .call ∧ "yield".toList.isPrefixOf k.text.toList = false
  | .body .. => k.text.toList.head? = some '\x7b'
  | .clause .. => k.bareIn = true
  | _ => False

end Frame

namespace Tree
variable {text : String} {c : PrintContext} {least : Nat}

theorem asOperand_verbatim : asOperand (.mk (.verbatim text)) (pieces (.mk (.verbatim text))) least c =
    if (Tree.mk (.verbatim text)).level < least then [mark "(", leaf text, mark ")"] else [leaf text] := by
  have hp : ∀ c, pieces (.mk (.verbatim text)) c = [leaf text] := fun _ => rfl
  simp [asOperand, parenthesized, node, Node.isBareIn, hp]

theorem asForced_verbatim {b : Bool} (h : b = false) : asForced b (.mk (.verbatim text)) (pieces (.mk (.verbatim text))) least c =
    asOperand (.mk (.verbatim text)) (pieces (.mk (.verbatim text))) least c := by
  rw [asForced, h]
  rfl

/-- What stands around an element of a list. -/
theorem listed_around (before after : List Tree) (c : PrintContext) : ∃ ps qs, ∀ t,
    listed (before ++ t :: after) c = ps ++ asOperand t (pieces t) Level.assign c ++ qs := by
  induction before with
  | nil =>
    cases after with
    | nil => exact ⟨[], [], fun t => by simp [listed]⟩
    | cons u us => exact ⟨[], [mark ",", blank] ++ listed (u :: us) c, fun t => by simp [listed]⟩
  | cons e es ih =>
    obtain ⟨ps, qs, h⟩ := ih
    refine ⟨asOperand e (pieces e) Level.assign c ++ [mark ",", blank] ++ ps, qs, fun t => ?_⟩
    rw [List.cons_append, listed, h t]
    · simp only [List.append_assoc]
    · simp

theorem slots_around (before after : List (Option Tree)) (c : PrintContext) : ∃ ps qs, ∀ t,
    slots (before ++ some t :: after) c = ps ++ asOperand t (pieces t) Level.assign c ++ qs := by
  induction before with
  | nil =>
    cases after with
    | nil => exact ⟨[], [], fun t => by simp [slots]⟩
    | cons u us => exact ⟨[], [mark ",", blank] ++ slots (u :: us) c, fun t => by simp [slots]⟩
  | cons e es ih =>
    obtain ⟨ps, qs, h⟩ := ih
    cases e with
    | none =>
      refine ⟨mark "," :: blank :: ps, qs, fun t => ?_⟩
      rw [List.cons_append, slots, h t]
      · simp only [List.append_assoc, List.cons_append]
      · simp
    | some e =>
      refine ⟨asOperand e (pieces e) Level.assign c ++ [mark ",", blank] ++ ps, qs, fun t => ?_⟩
      rw [List.cons_append, slots, h t]
      · simp only [List.append_assoc]
      · simp

theorem isLastHole_around (before after : List (Option Tree)) (t u : Tree) :
    isLastHole (before ++ some t :: after) = isLastHole (before ++ some u :: after) := by
  induction before with
  | nil => cases after <;> simp [isLastHole]
  | cons e es ih =>
    cases es with
    | nil => cases e <;> simp [isLastHole]
    | cons e' es => simpa [isLastHole] using ih

end Tree

namespace Frame
variable {F : Frame} {k : Kept}

open Tree

theorem asOperand_shown {text : String} {c : PrintContext} :
    asOperand (.mk (.verbatim text)) (pieces (.mk (.verbatim text))) F.least c = F.shown text := asOperand_verbatim

theorem asNewCallee_verbatim {text : String} {c : PrintContext} : asNewCallee (.mk (.verbatim text)) (pieces (.mk (.verbatim text))) c =
    asOperand (.mk (.verbatim text)) (pieces (.mk (.verbatim text))) Level.call c := by
  have hneeds : (Tree.mk (.verbatim text)).newCalleeNeedsParens = decide ((Tree.mk (.verbatim text)).level < Level.call) := rfl
  rw [asNewCallee, hneeds, asOperand_verbatim]
  by_cases h : (Tree.mk (.verbatim text)).level < Level.call
  · rw [if_pos (decide_eq_true h), if_pos h]
    rfl
  · rw [if_neg (by simpa using h), if_neg h]
    rfl

section Operators
variable {operator : String}

theorem binaryPieces_left (operator : String) (right : Tree) (c : PrintContext) :
    ∃ after, ∀ text, binaryPieces operator (.mk (.verbatim text)) (pieces (.mk (.verbatim text))) right (pieces right) c =
      (Frame.binaryLeft operator right).shown text ++ after := by
  by_cases h : operator = "**"
  · refine ⟨[blank, mark "**", blank] ++ asOperand right (pieces right) (Level.ofOperator operator) c, fun text => ?_⟩
    have hb : (Tree.mk (.verbatim text)).node.isUnaryOrAwait = false := rfl
    rw [binaryPieces, if_pos h, asForced_verbatim hb, ← asOperand_shown (c := c), least, if_pos h, List.append_assoc]
  · refine ⟨[blank, mark operator, blank] ++
      asForced (operator = "??" && right.node.isAndOr) right (pieces right) (Level.ofOperator operator + 1) c, fun text => ?_⟩
    have hb : (decide (operator = "??") && (Tree.mk (.verbatim text)).node.isAndOr) = false := Bool.and_false _
    rw [binaryPieces, if_neg h]
    dsimp only
    rw [asForced_verbatim hb, ← asOperand_shown (c := c), least, if_neg h, List.append_assoc]

theorem binaryPieces_right (operator : String) (left : Tree) (c : PrintContext) :
    ∃ before, ∀ text, binaryPieces operator left (pieces left) (.mk (.verbatim text)) (pieces (.mk (.verbatim text))) c =
      before ++ (Frame.binaryRight operator left).shown text := by
  by_cases h : operator = "**"
  · refine ⟨asForced left.node.isUnaryOrAwait left (pieces left) (Level.ofOperator operator + 1) c ++ [blank, mark "**", blank],
      fun text => ?_⟩
    rw [binaryPieces, if_pos h, ← asOperand_shown (c := c), least, if_pos h]
  · refine ⟨asForced (operator = "??" && left.node.isAndOr) left (pieces left) (Level.ofOperator operator) c ++
      [blank, mark operator, blank], fun text => ?_⟩
    have hb : (decide (operator = "??") && (Tree.mk (.verbatim text)).node.isAndOr) = false := Bool.and_false _
    rw [binaryPieces, if_neg h]
    dsimp only
    rw [asForced_verbatim hb, ← asOperand_shown (c := c), least, if_neg h]

end Operators

/-- What is printed around an opaque text does not depend on it. -/
theorem pieces_plug (F : Frame) (c : PrintContext) :
    ∃ before after, ∀ text, pieces (F.plug (.mk (.verbatim text))) c = before ++ F.shown text ++ after := by
  cases F with
  | callee arguments optional =>
    refine ⟨[], optionally optional [mark "?."] ++ [mark "("] ++ listed arguments c ++ [mark ")"], fun text => ?_⟩
    rw [← asOperand_shown (c := c)]
    show asOperand _ _ Level.call c ++ _ ++ _ ++ _ ++ _ = _
    simp only [List.append_assoc, List.nil_append]
    rfl
  | argument e before after optional =>
    obtain ⟨ps, qs, h⟩ := listed_around before after c
    refine ⟨asChainObject e (pieces e) c ++ optionally optional [mark "?."] ++ [mark "("] ++ ps, qs ++ [mark ")"], fun text => ?_⟩
    rw [← asOperand_shown (c := c)]
    show _ ++ _ ++ _ ++ listed _ c ++ _ = _
    rw [h]
    simp only [List.append_assoc]
    rfl
  | newCallee arguments =>
    refine ⟨[mark "new", blank], [mark "("] ++ listed arguments c ++ [mark ")"], fun text => ?_⟩
    rw [← asOperand_shown (c := c)]
    show _ ++ asNewCallee _ _ c ++ _ ++ _ ++ _ = _
    rw [asNewCallee_verbatim]
    simp only [List.append_assoc]
    rfl
  | newArgument e before after =>
    obtain ⟨ps, qs, h⟩ := listed_around before after c
    refine ⟨[mark "new", blank] ++ asNewCallee e (pieces e) c ++ [mark "("] ++ ps, qs ++ [mark ")"], fun text => ?_⟩
    rw [← asOperand_shown (c := c)]
    show _ ++ _ ++ _ ++ listed _ c ++ _ = _
    rw [h]
    simp only [List.append_assoc]
    rfl
  | object member computed optional =>
    refine ⟨[], if computed then
        optionally optional [mark "?."] ++ mark "[" :: asOperand member (pieces member) Level.sequence c ++ [mark "]"]
      else mark (if optional then "?." else ".") :: pieces member c, fun text => ?_⟩
    rw [← asOperand_shown (c := c)]
    rfl
  | index e optional =>
    refine ⟨asMemberObject e (pieces e) c ++ optionally optional [mark "?."] ++ [mark "["], [mark "]"], fun text => ?_⟩
    rw [← asOperand_shown (c := c)]
    show _ ++ (_ ++ mark "[" :: asOperand _ _ Level.sequence c ++ _) = _
    simp only [List.append_assoc]
    rfl
  | unary operator =>
    refine ⟨mark operator :: optionally (operator.toList.all Unicode.isAsciiLetter) [blank], [], fun text => ?_⟩
    have hgap : unaryGap operator (.mk (.verbatim text)) = operator.toList.all Unicode.isAsciiLetter := by
      unfold unaryGap
      split <;> simp [node, Node.startsWithSign]
    rw [← asOperand_shown (c := c), List.append_nil]
    show mark operator :: optionally (unaryGap operator _) [blank] ++ _ = _
    rw [hgap]
    rfl
  | await =>
    refine ⟨[mark "await", blank], [], fun text => ?_⟩
    rw [← asOperand_shown (c := c), List.append_nil]
    rfl
  | binaryLeft operator right =>
    obtain ⟨after, h⟩ := binaryPieces_left operator right c
    exact ⟨[], after, h⟩
  | binaryRight operator left =>
    obtain ⟨before, h⟩ := binaryPieces_right operator left c
    exact ⟨before, [], fun text => by rw [List.append_nil]; exact h text⟩
  | logicalLeft operator right =>
    obtain ⟨after, h⟩ := binaryPieces_left operator right c
    exact ⟨[], after, h⟩
  | logicalRight operator left =>
    obtain ⟨before, h⟩ := binaryPieces_right operator left c
    exact ⟨before, [], fun text => by rw [List.append_nil]; exact h text⟩
  | assigned operator target =>
    refine ⟨asOperand target (pieces target) Level.call c ++ [blank, mark operator, blank], [], fun text => ?_⟩
    rw [← asOperand_shown (c := c), List.append_nil]
    rfl
  | test y n =>
    refine ⟨[], [blank, mark "?", blank] ++ asOperand y (pieces y) Level.assign c ++ [blank, mark ":", blank] ++
      asOperand n (pieces n) Level.assign c, fun text => ?_⟩
    rw [← asOperand_shown (c := c)]
    show asOperand _ _ Level.nullish c ++ _ ++ _ ++ _ ++ _ = _
    simp only [List.append_assoc, List.nil_append]
    rfl
  | yes e n =>
    refine ⟨asOperand e (pieces e) Level.nullish c ++ [blank, mark "?", blank], [blank, mark ":", blank] ++
      asOperand n (pieces n) Level.assign c, fun text => ?_⟩
    rw [← asOperand_shown (c := c)]
    show _ ++ _ ++ asOperand _ _ Level.assign c ++ _ ++ _ = _
    simp only [List.append_assoc]
    rfl
  | no e y =>
    refine ⟨asOperand e (pieces e) Level.nullish c ++ [blank, mark "?", blank] ++ asOperand y (pieces y) Level.assign c ++
      [blank, mark ":", blank], [], fun text => ?_⟩
    rw [← asOperand_shown (c := c), List.append_nil]
    rfl
  | element before after =>
    obtain ⟨ps, qs, h⟩ := listed_around before after c
    refine ⟨ps, qs, fun text => ?_⟩
    rw [← asOperand_shown (c := c)]
    exact h _
  | item before after =>
    obtain ⟨ps, qs, h⟩ := slots_around before after c
    refine ⟨mark "[" :: ps, qs ++ optionally (isLastHole (before ++ some (.mk .thisExpression) :: after)) [mark ","] ++ [mark "]"],
      fun text => ?_⟩
    rw [← asOperand_shown (c := c), isLastHole_around before after _ (.mk (.verbatim text))]
    show mark "[" :: slots _ c ++ _ ++ _ = _
    rw [h]
    simp only [List.append_assoc, List.cons_append]
    rfl
  | spread =>
    refine ⟨[mark "..."], [], fun text => ?_⟩
    rw [← asOperand_shown (c := c), List.append_nil]
    rfl
  | value name computed =>
    refine ⟨asKey computed name (pieces name) c ++ [mark ":", blank], [], fun text => ?_⟩
    rw [← asOperand_shown (c := c), List.append_nil]
    rfl
  | key e =>
    refine ⟨[mark "["], [mark "]", mark ":", blank] ++ asOperand e (pieces e) Level.assign c, fun text => ?_⟩
    rw [← asOperand_shown (c := c)]
    show mark "[" :: asOperand _ _ Level.assign c ++ _ ++ _ ++ _ = _
    simp only [List.append_assoc, List.cons_append]
    rfl
  | default pattern =>
    refine ⟨asOperand pattern (pieces pattern) Level.call c ++ [blank, mark "=", blank], [], fun text => ?_⟩
    rw [← asOperand_shown (c := c), List.append_nil]
    rfl
  | body params isAsync =>
    refine ⟨optionally isAsync [mark "async", blank] ++ mark "(" :: listed params c ++ [mark ")", blank, mark "=>", blank], [],
      fun text => ?_⟩
    rw [← asOperand_shown (c := c), List.append_nil]
    rfl
  | heritage id members =>
    refine ⟨mark "class" :: id.elim [] (fun t => blank :: asOperand t (pieces t) Level.primary c) ++ [blank, mark "extends", blank],
      blank :: classBody members c, fun text => ?_⟩
    rw [← asOperand_shown (c := c)]
    cases id with
    | none =>
      show [mark "class"] ++ (_ ++ asOperand _ _ Level.call c) ++ blank :: _ = _
      simp only [List.append_assoc]
      rfl
    | some t =>
      show (mark "class" :: blank :: asOperand t (pieces t) Level.primary c) ++ (_ ++ asOperand _ _ Level.call c) ++ blank :: _ = _
      simp only [List.append_assoc]
      rfl
  | clause e update s =>
    refine ⟨[mark "for", blank, mark "("], [mark ";"] ++ laterClause e c ++ [mark ";"] ++ laterClause update c ++
      [mark ")", blank] ++ asStatement s (pieces s) c, fun text => ?_⟩
    rw [← asOperand_shown (c := c.withoutIn), plug, pieces_forStatement]
    simp only [List.append_assoc]
    rfl

/-! ## What the grammar makes of it -/

/-- A member expression holds no call. -/
theorem not_reaches_call : ¬ Reaches .member .call := by
  intro h
  rcases Relation.ReflTransGen.cases_head h with h | ⟨s, hs, h⟩
  · cases h
  · obtain rfl : s = .primary := by simpa [Symbol.units] using hs
    rcases Relation.ReflTransGen.cases_head h with h | ⟨s, hs, -⟩
    · cases h
    · cases hs

/-- The nonterminals of the opaque texts that bind at least like a call. -/
def tight : List Symbol := [.primary, .member, .call]

/-- A nonterminal down to the calls takes all of them. -/
theorem reaches_tight {s s' : Symbol} {n : Nat} (hs : Reaches s (.ofLevel n)) (hn : n ≤ Level.call) (h : s' ∈ tight) :
    Reaches s s' := by
  have hcall : Reaches s .leftHandSide := hs.trans (reaches_of_le hn)
  simp only [tight, List.mem_cons, List.not_mem_nil, or_false] at h
  rcases h with rfl | rfl | rfl
  · exact hs.trans (reaches_primary n)
  · exact hcall.trans reaches_member
  · exact hcall.trans reaches_call

theorem mem_operations {operator : String} {o : Grammar.Operation} (ho : o ∈ binaries ++ logicals) (h : operator ∈ o.operators) :
    o ∈ operations operator := by
  simpa [operations, h] using ho

/-- The operands of an operator come from nonterminals between the assignments and the calls. -/
theorem reaches_operation {operator : String} (h : operator ∈ binaryOperators ∨ operator ∈ logicalOperators) :
    ∃ o ∈ operations operator, ∃ n ≤ Level.call, ∃ m ≤ Level.call,
      Reaches o.left (.ofLevel n) ∧ Reaches o.right (.ofLevel m) := by
  have hexponent : ∀ operator, Level.ofOperator operator ≤ Level.exponent := ofOperator_le
  rcases h with h | h
  · by_cases hp : operator = "**"
    · subst hp
      have ho : ⟨.exponentiation, .update, ["**"], .exponentiation⟩ ∈ binaries ++ logicals := by simp [binaries]
      exact ⟨_, mem_operations ho (by simp), Level.postfixUpdate, by decide, Level.exponent, by decide, .refl, .refl⟩
    · obtain ⟨o, ho, hin, -, hleft, hright⟩ := binary_operands h hp
      refine ⟨o, mem_operations (List.mem_append_left _ ho) hin, _, Nat.le_trans (hexponent operator) (by decide), _, ?_,
        by rw [hleft]; exact .refl, by rw [hright]; exact .refl⟩
      exact Nat.le_trans (Nat.succ_le_succ (hexponent operator)) (by decide)
  · by_cases hq : operator = "??"
    · subst hq
      have ho : ⟨.coalesce, .coalesceHead, ["??"], .bitOr⟩ ∈ binaries ++ logicals := by simp [logicals]
      exact ⟨_, mem_operations ho (by simp), Level.bitOr, by decide, Level.bitOr, by decide, .single (by decide), .refl⟩
    · obtain ⟨o, ho, hin, -, hleft, hright⟩ := logical_operands h hq
      refine ⟨o, mem_operations (List.mem_append_right _ ho) hin, _, Nat.le_trans (hexponent operator) (by decide), _, ?_,
        by rw [hleft]; exact .refl, by rw [hright]; exact .refl⟩
      exact Nat.le_trans (Nat.succ_le_succ (hexponent operator)) (by decide)

/-- Every place but the callee of `new` takes an opaque text that binds like a call. -/
theorem takes_tight (hF : F.IsLegal) (hnew : ∀ arguments, F ≠ .newCallee arguments) {s' : Symbol} (h : s' ∈ tight) :
    ∃ s ∈ F.asks, Reaches s s' := by
  have hmember : Reaches .member .primary := .single (by decide)
  have chained : ∃ s ∈ [Symbol.member, .call, .optional], Reaches s s' := by
    simp only [tight, List.mem_cons, List.not_mem_nil, or_false] at h
    rcases h with rfl | rfl | rfl
    · exact ⟨.member, by simp, hmember⟩
    · exact ⟨.member, by simp, .refl⟩
    · exact ⟨.call, by simp, .refl⟩
  have single (n : Nat) (hn : n ≤ Level.call) : ∃ s ∈ [Symbol.ofLevel n], Reaches s s' :=
    ⟨_, List.mem_singleton.2 rfl, reaches_tight .refl hn h⟩
  cases F with
  | callee | object => exact chained
  | newCallee arguments => exact absurd rfl (hnew arguments)
  | unary | await => exact single Level.unary (by decide)
  | test => exact single Level.nullish (by decide)
  | heritage => exact single Level.call (by decide)
  | index | clause => exact single Level.sequence (by decide)
  | binaryLeft operator right =>
    obtain ⟨o, ho, n, hn, -, -, hleft, -⟩ := reaches_operation (.inl hF)
    exact ⟨o.left, List.mem_map_of_mem ho, reaches_tight hleft hn h⟩
  | binaryRight operator left =>
    obtain ⟨o, ho, -, -, m, hm, -, hright⟩ := reaches_operation (.inl hF)
    exact ⟨o.right, List.mem_map_of_mem ho, reaches_tight hright hm h⟩
  | logicalLeft operator right =>
    obtain ⟨o, ho, n, hn, -, -, hleft, -⟩ := reaches_operation (.inr hF)
    exact ⟨o.left, List.mem_map_of_mem ho, reaches_tight hleft hn h⟩
  | logicalRight operator left =>
    obtain ⟨o, ho, -, -, m, hm, -, hright⟩ := reaches_operation (.inr hF)
    exact ⟨o.right, List.mem_map_of_mem ho, reaches_tight hright hm h⟩
  | _ => exact single Level.assign (by decide)

theorem nullish_le_ofOperator (operator : String) : Level.nullish ≤ Level.ofOperator operator := by
  unfold Level.ofOperator
  split <;> decide

/-- A place that prints `yield` as it is takes it so. -/
theorem takes_yield (h : F.least ≤ Level.assign) : ∃ s ∈ F.asks, Reaches s .assignment := by
  have assignment : ∃ s ∈ [Symbol.assignment], Reaches s .assignment := ⟨_, List.mem_singleton.2 rfl, .refl⟩
  have operator (operator : String) :
      ¬ (if operator = "**" then Level.ofOperator operator + 1 else Level.ofOperator operator) ≤ Level.assign ∧
      ¬ (if operator = "**" then Level.ofOperator operator else Level.ofOperator operator + 1) ≤ Level.assign := by
    have := nullish_le_ofOperator operator
    have hlevels : Level.assign < Level.nullish := by decide
    split <;> omega
  cases F with
  | callee | newCallee | object | heritage => exact absurd h (by decide : ¬ Level.call ≤ Level.assign)
  | unary | await => exact absurd h (by decide : ¬ Level.unary ≤ Level.assign)
  | test => exact absurd h (by decide : ¬ Level.nullish ≤ Level.assign)
  | binaryLeft op _ | logicalLeft op _ => exact absurd h (operator op).1
  | binaryRight op _ | logicalRight op _ => exact absurd h (operator op).2
  | index | clause => exact ⟨.expression, List.mem_singleton.2 rfl, .single (by decide)⟩
  | _ => exact assignment

theorem level_verbatim (text : String) :
    (Tree.mk (.verbatim text)).level = if "yield".toList.isPrefixOf text.toList then Level.assign else Level.primary := rfl

/-- In parentheses an opaque text is an operand anywhere. -/
theorem keeps_parenthesized (hF : F.IsLegal) : F.Keeps k [mark "(", leaf k.text, mark ")"] := by
  refine .inr ⟨rfl, ?_, ?_⟩
  · by_cases hnew : ∃ arguments, F = .newCallee arguments
    · obtain ⟨arguments, rfl⟩ := hnew
      exact ⟨.member, List.mem_singleton.2 rfl, .single (by decide)⟩
    · exact takes_tight hF (fun arguments he => hnew ⟨arguments, he⟩) (List.mem_cons_self)
  · rcases k.known with h | ⟨h, -⟩
    · exact reaches_tight (n := Level.sequence) .refl (by decide) h
    · rw [h]
      exact .single (by decide)

theorem keeps_bare : F.Keeps k [leaf k.text] ↔ (∃ s ∈ F.asks, Reaches s k.symbol) ∧
    (F.refusesBrace = true → k.text.toList.head? ≠ some '\x7b') ∧ (F.refusesIn = true → k.bareIn = false) :=
  ⟨fun | .inl ⟨_, h⟩ => h | .inr ⟨h, _⟩ => by simp at h, fun h => .inl ⟨rfl, h⟩⟩

/-- The call of a class that a template makes. -/
def templateMade : Kept := ⟨"make\x60x\x60", .member, false, .inl (by simp)⟩

/-- A program of one expression. -/
def sole (e : Tree) : Tree := .mk (.program [.mk (.expressionStatement e)])

/-- The callee of the one expression of a program, if it is opaque, and whether it is called by `new`. -/
def soleCallee? : Tree → Option (Bool × String)
  | .mk (.program [.mk (.expressionStatement (.mk (.newExpression (.mk (.verbatim text)) [])))]) => some (true, text)
  | .mk (.program [.mk (.expressionStatement (.mk (.callExpression (.mk (.verbatim text)) [] false)))]) => some (false, text)
  | _ => none

theorem read_soleCallee {source text : String} (isNew : Bool)
    (h : ((Source.readProgram source).toOption.any fun t => soleCallee? t = some (isNew, text)) = true) :
    Source.readProgram source = .ok (sole ((if isNew then newCallee [] else callee [] false).plug (.mk (.verbatim text)))) := by
  cases hr : Source.readProgram source with
  | error => simp [hr, Except.toOption] at h
  | ok t =>
    simp only [hr, Except.toOption, Option.any_some, decide_eq_true_eq] at h
    unfold soleCallee? at h
    split at h
    · cases h
      rfl
    · cases h
      rfl
    · cases h

end Frame
end Graft
