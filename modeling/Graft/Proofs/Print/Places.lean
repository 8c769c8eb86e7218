import Graft.Proofs.Print.Lexing
import Graft.Proofs.Print.Formed
/-!
# The places of operands

Outside the head of a `for`, every place prints its operand as it is or in parentheses (`enclose`), and what separates the
places is when. An expression prints as operands between marks, so each constructor has one equation here that later
modules work with.
-/

namespace Graft.Grammar

open Lexical Graft.Tree
open Piece (blank leaf mark)

def enclose (b : Bool) (ps : Pieces) : Pieces := if b then .mark "(" :: ps ++ [.mark ")"] else ps

def separate : List Pieces → Pieces
  | [] => []
  | [ps] => ps
  | ps :: rest => ps ++ [.mark ",", .blank] ++ separate rest

/-- An operand that is put in parentheses if it binds looser than `least`. -/
def operand (t : Tree) (least : Nat) (c : PrintContext) : Pieces := enclose (decide (t.level < least)) (pieces t c)

def operands (ts : List Tree) (c : PrintContext) : Pieces := separate (ts.map fun t => operand t Level.assign c)

def argumentList (ts : List Tree) (c : PrintContext) : Pieces := .mark "(" :: operands ts c ++ [.mark ")"]

variable {c : PrintContext} {t : Tree} {least : Nat}

theorem parenthesized_eq (hc : c.noIn = false) (printed : Printed) : parenthesized printed c = enclose true (printed c) := by
  have : c.withIn = c := by
    cases c
    cases hc
    rfl
  rw [parenthesized, this, enclose, if_pos rfl]

theorem asOperand_eq (hc : c.noIn = false) : asOperand t (pieces t) least c = operand t least c := by
  rw [asOperand, operand, hc, Bool.false_and, Bool.or_false]
  split
  next h => rw [parenthesized_eq hc, h]
  next h => rw [Bool.eq_false_iff.2 h, enclose, if_neg Bool.false_ne_true]

theorem asForced_eq (hc : c.noIn = false) (force : Bool) :
    asForced force t (pieces t) least c = enclose (force || decide (t.level < least)) (pieces t c) := by
  cases force with
  | true => exact parenthesized_eq hc _
  | false => exact asOperand_eq hc

theorem asChainObject_eq (hc : c.noIn = false) :
    asChainObject t (pieces t) c = enclose (t.node.isChain || decide (t.level < Level.call)) (pieces t c) := by
  unfold asChainObject
  split
  next h => rw [parenthesized_eq hc, h, Bool.true_or]
  next h => rw [asOperand_eq hc, operand, Bool.eq_false_iff.2 h, Bool.false_or]

theorem asMemberObject_eq (hc : c.noIn = false) : asMemberObject t (pieces t) c =
    enclose (t.node.isNumber || (t.node.isChain || decide (t.level < Level.call))) (pieces t c) := by
  unfold asMemberObject
  split
  next h => rw [parenthesized_eq hc, h, Bool.true_or]
  next h => rw [asChainObject_eq hc, Bool.eq_false_iff.2 h, Bool.false_or]

theorem asNewCallee_eq (hc : c.noIn = false) : asNewCallee t (pieces t) c = enclose t.newCalleeNeedsParens (pieces t c) := by
  unfold asNewCallee
  split
  next h => rw [parenthesized_eq hc, h]
  next h => rw [Bool.eq_false_iff.2 h, enclose, if_neg Bool.false_ne_true]

/-! ## Lists -/

theorem listed_eq (hc : c.noIn = false) (ts : List Tree) : listed ts c = operands ts c := by
  induction ts with
  | nil => rfl
  | cons t ts ih =>
    cases ts with
    | nil => rw [listed, asOperand_eq hc]; rfl
    | cons u us =>
      rw [listed, asOperand_eq hc, ih]
      · rfl
      · nofun

theorem slots_eq (hc : c.noIn = false) (ts : List Tree) : slots (ts.map some) c = operands ts c := by
  induction ts with
  | nil => rfl
  | cons t ts ih =>
    cases ts with
    | nil => rw [List.map_cons, List.map_nil, slots, asOperand_eq hc]; rfl
    | cons u us =>
      rw [List.map_cons, slots, asOperand_eq hc, ih]
      · rfl
      · nofun

theorem isLastHole_some (ts : List Tree) : isLastHole (ts.map some) = false := by
  induction ts with
  | nil => rfl
  | cons t ts ih =>
    rw [List.map_cons, isLastHole]
    · exact ih
    · nofun

theorem furtherMembers_eq (hc : c.noIn = false) (t : Tree) (ts : List Tree) :
    operand t Level.assign c ++ furtherMembers ts c = operands (t :: ts) c := by
  induction ts generalizing t with
  | nil => simp [furtherMembers, operands, separate]
  | cons u us ih =>
    rw [furtherMembers, asOperand_eq hc, List.append_assoc, ih]
    simp [operands, separate]

theorem braced_eq (hc : c.noIn = false) (t : Tree) (ts : List Tree) :
    braced (t :: ts) c = [mark "\x7b", blank] ++ operands (t :: ts) c ++ [blank, mark "\x7d"] := by
  rw [braced, asOperand_eq hc, ← furtherMembers_eq hc, List.append_assoc _ (operand t Level.assign c)]

/-! ## Nodes -/

/-- An operand of an operator other than `**`. -/
def side (op : String) (t : Tree) (least : Nat) (c : PrintContext) : Pieces :=
  enclose (op = "??" && t.node.isAndOr || decide (t.level < least)) (pieces t c)

/-- The callee of a call. -/
def callee (t : Tree) (c : PrintContext) : Pieces :=
  enclose (t.node.isChain || decide (t.level < Level.call)) (pieces t c)

/-- The object of a member access. -/
def object (t : Tree) (c : PrintContext) : Pieces :=
  enclose (t.node.isNumber || (t.node.isChain || decide (t.level < Level.call))) (pieces t c)

section Nodes
variable (hc : c.noIn = false)
include hc

theorem pieces_array (es : List Tree) :
    pieces (.mk (.arrayExpression (es.map some))) c = mark "[" :: operands es c ++ [mark "]"] := by
  show mark "[" :: slots (es.map some) c ++ optionally (isLastHole (es.map some)) [mark ","] ++ [mark "]"] = _
  rw [slots_eq hc, isLastHole_some, optionally, if_neg Bool.false_ne_true, List.append_nil]

theorem pieces_object (p : Tree) (ps : List Tree) : pieces (.mk (.objectExpression (p :: ps))) c =
    [mark "\x7b", blank] ++ operands (p :: ps) c ++ [blank, mark "\x7d"] :=
  braced_eq hc p ps

theorem pieces_property (k v : Tree) : pieces (.mk (.property k v .init false false false)) c =
    operand k Level.primary c ++ [mark ":", blank] ++ operand v Level.assign c := by
  show asKey false k (pieces k) c ++ [mark ":", blank] ++ asOperand v (pieces v) Level.assign c = _
  rw [asKey, if_neg Bool.false_ne_true, asOperand_eq hc, asOperand_eq hc]

theorem pieces_computed (k v : Tree) : pieces (.mk (.property k v .init true false false)) c =
    mark "[" :: operand k Level.assign c ++ [mark "]"] ++ [mark ":", blank] ++ operand v Level.assign c := by
  show asKey true k (pieces k) c ++ [mark ":", blank] ++ asOperand v (pieces v) Level.assign c = _
  rw [asKey, if_pos rfl, asOperand_eq hc, asOperand_eq hc]

theorem pieces_arrow {isAsync : Bool} {params : List String} {body : Tree} (hb : body.node.isBlock = false) :
    pieces (arrowTree isAsync params body) c = (if isAsync then [mark "async", blank] else []) ++
      argumentList (params.map fun p => .mk (.identifier p)) c ++ [blank, mark "=>", blank] ++
      (if startsWithBrace body then mark "(" :: operand body Level.assign c ++ [mark ")"]
        else operand body Level.assign c) := by
  show optionally isAsync [mark "async", blank] ++ mark "(" :: listed (params.map fun p => .mk (.identifier p)) c
      ++ [mark ")", blank, mark "=>", blank]
      ++ (if body.node.isBlock then asStatement body (pieces body) c
          else if startsWithBrace body then mark "(" :: asOperand body (pieces body) Level.assign c ++ [mark ")"]
          else asOperand body (pieces body) Level.assign c) = _
  rw [listed_eq hc, hb, if_neg Bool.false_ne_true, asOperand_eq hc, optionally]
  simp [argumentList]

theorem pieces_unary (op : String) (e : Tree) : pieces (.mk (.unaryExpression op e)) c =
    mark op :: (if unaryGap op e then [blank] else []) ++ operand e Level.unary c := by
  show mark op :: optionally (unaryGap op e) [blank] ++ asOperand e (pieces e) Level.unary c = _
  rw [asOperand_eq hc, optionally]

theorem pieces_before (op : String) (e : Tree) :
    pieces (.mk (.updateExpression op true e)) c = mark op :: operand e Level.unary c := by
  show mark op :: asOperand e (pieces e) Level.unary c = _
  rw [asOperand_eq hc]

theorem pieces_after (op : String) (e : Tree) :
    pieces (.mk (.updateExpression op false e)) c = operand e Level.call c ++ [mark op] := by
  show asOperand e (pieces e) Level.call c ++ [mark op] = _
  rw [asOperand_eq hc]

theorem pieces_await (e : Tree) :
    pieces (.mk (.awaitExpression e)) c = [mark "await", blank] ++ operand e Level.unary c := by
  show [mark "await", blank] ++ asOperand e (pieces e) Level.unary c = _
  rw [asOperand_eq hc]

theorem binaryPieces_power (l r : Tree) : binaryPieces "**" l (pieces l) r (pieces r) c =
    enclose (l.node.isUnaryOrAwait || decide (l.level < Level.unary)) (pieces l c) ++ [blank, mark "**", blank] ++
      operand r Level.exponent c := by
  show asForced l.node.isUnaryOrAwait l (pieces l) Level.unary c ++ [blank, mark "**", blank] ++
    asOperand r (pieces r) Level.exponent c = _
  rw [asForced_eq hc, asOperand_eq hc]

theorem binaryPieces_eq {op : String} (hop : op ≠ "**") (l r : Tree) : binaryPieces op l (pieces l) r (pieces r) c =
    side op l (Level.ofOperator op) c ++ [blank, mark op, blank] ++ side op r (Level.ofOperator op + 1) c := by
  rw [binaryPieces, if_neg hop]
  show asForced (op = "??" && l.node.isAndOr) l (pieces l) (Level.ofOperator op) c ++ [blank, mark op, blank] ++
    asForced (op = "??" && r.node.isAndOr) r (pieces r) (Level.ofOperator op + 1) c = _
  rw [asForced_eq hc, asForced_eq hc, side, side]

theorem pieces_conditional (t y n : Tree) : pieces (.mk (.conditionalExpression t y n)) c =
    operand t Level.nullish c ++ [blank, mark "?", blank] ++ operand y Level.assign c ++ [blank, mark ":", blank] ++
      operand n Level.assign c := by
  show asOperand t (pieces t) Level.nullish c ++ [blank, mark "?", blank] ++ asOperand y (pieces y) Level.assign c ++
    [blank, mark ":", blank] ++ asOperand n (pieces n) Level.assign c = _
  rw [asOperand_eq hc, asOperand_eq hc, asOperand_eq hc]

theorem pieces_assignment (op : String) (l r : Tree) : pieces (.mk (.assignmentExpression op l r)) c =
    operand l Level.call c ++ [blank, mark op, blank] ++ operand r Level.assign c := by
  show asOperand l (pieces l) Level.call c ++ [blank, mark op, blank] ++ asOperand r (pieces r) Level.assign c = _
  rw [asOperand_eq hc, asOperand_eq hc]

theorem pieces_call (e : Tree) (as : List Tree) (opt : Bool) : pieces (.mk (.callExpression e as opt)) c =
    callee e c ++ (if opt then [mark "?."] else []) ++ argumentList as c := by
  show asChainObject e (pieces e) c ++ optionally opt [mark "?."] ++ [mark "("] ++ listed as c ++ [mark ")"] = _
  rw [asChainObject_eq hc, listed_eq hc, optionally, callee]
  simp [argumentList]

theorem pieces_new (e : Tree) (as : List Tree) : pieces (.mk (.newExpression e as)) c =
    [mark "new", blank] ++ enclose e.newCalleeNeedsParens (pieces e c) ++ argumentList as c := by
  show [mark "new", blank] ++ asNewCallee e (pieces e) c ++ [mark "("] ++ listed as c ++ [mark ")"] = _
  rw [asNewCallee_eq hc, listed_eq hc]
  simp [argumentList]

theorem pieces_member (e : Tree) (name : String) (opt : Bool) :
    pieces (.mk (.memberExpression e (.mk (.identifier name)) false opt)) c =
      object e c ++ [mark (if opt then "?." else "."), leaf name] := by
  show asMemberObject e (pieces e) c ++ [mark (if opt then "?." else "."), leaf name] = _
  rw [asMemberObject_eq hc, object]

theorem pieces_index (e i : Tree) (opt : Bool) : pieces (.mk (.memberExpression e i true opt)) c =
    object e c ++ (if opt then [mark "?."] else []) ++ mark "[" :: operand i Level.sequence c ++ [mark "]"] := by
  show asMemberObject e (pieces e) c ++ (optionally opt [mark "?."] ++ mark "[" ::
    asOperand i (pieces i) Level.sequence c ++ [mark "]"]) = _
  rw [asMemberObject_eq hc, asOperand_eq hc, optionally, object]
  simp only [List.append_assoc]

end Nodes

end Graft.Grammar
