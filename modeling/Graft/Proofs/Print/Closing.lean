import Graft.Proofs.Print.Lexing
import Graft.Source.Program
/-!
# How printed statements end

The text of a statement ends with a semicolon or a brace, so that an `else` or a `while` can follow, except where it ends
with source text that is kept as written (`Tree.closed_iff`). A source may have closed such a statement by its line break
alone, and then the printed text is no program (`debugger_lost`).
-/

namespace Graft

open Lexical
open Piece (blank leaf mark)

/-- Characters that end a statement. -/
def endsStatement (cs : List Char) : Bool := cs.getLast? = some ';' || cs.getLast? = some '\x7d'

namespace Tree

/-- The statement that the printed form of a statement ends with. -/
def trailing : Tree → Tree
  | .mk (.ifStatement _ _ (some alternate)) => trailing alternate
  | .mk (.ifStatement _ consequent none) => trailing consequent
  | .mk (.forStatement _ _ _ body) => trailing body
  | .mk (.forInStatement _ _ body) => trailing body
  | .mk (.forOfStatement _ _ body _) => trailing body
  | .mk (.whileStatement _ body) => trailing body
  | .mk (.labeledStatement _ body) => trailing body
  | .mk (.tryStatement _ _ (some finalizer)) => trailing finalizer
  | .mk (.tryStatement _ (some (.mk (.catchClause _ body))) none) => trailing body
  | .mk (.tryStatement block _ none) => trailing block
  | .mk (.functionDeclaration ⟨_, _, body, _, _⟩) => trailing body
  | t => t

/-- Does the text of a statement end with source text that ends no statement? -/
def endsOpen (t : Tree) : Bool :=
  match t.trailing.node with
  | .verbatim text => !endsStatement text.toList
  | _ => false

variable {c : PrintContext} {ps qs : Pieces}

theorem ends_mark (ps : Pieces) {s : String} (h : s = ";" ∨ s = "\x7d") : endsStatement (chars (ps ++ [mark s])) = true := by
  rcases h with rfl | rfl
  · simp [endsStatement]
  · simp [endsStatement]

theorem ends_brace (ps : Pieces) (p : Piece) {s : String} (h : s = ";" ∨ s = "\x7d") :
    endsStatement (chars (ps ++ [p, mark s])) = true := by
  have : ps ++ [p, mark s] = (ps ++ [p]) ++ [mark s] := by simp
  rw [this]
  exact ends_mark _ h

/-- Behind a blank, only what comes after it matters. -/
theorem ends_blank (rest : Pieces) (h : ps = rest ++ blank :: qs) : endsStatement (chars ps) = endsStatement (chars qs) := by
  subst h
  rw [chars_append, chars_blank, endsStatement, endsStatement, List.getLast?_append]
  cases hq : chars qs with
  | nil => simp
  | cons ch cs => simp

theorem ends_body (ps : Pieces) (p : Piece) (qs : Pieces) :
    endsStatement (chars (ps ++ [p, blank] ++ qs)) = endsStatement (chars qs) :=
  ends_blank (ps ++ [p]) (by simp)

theorem ends_clause (ps : Pieces) (p : Piece) (qs : Pieces) :
    endsStatement (chars (ps ++ ([blank, p, blank] ++ qs))) = endsStatement (chars qs) :=
  ends_blank (ps ++ [blank, p]) (by simp)

theorem ends_catch (ps : Pieces) (param : Option Tree) (body : Tree) :
    endsStatement (chars (ps ++ catchClause (.mk (.catchClause param body)) c)) =
      endsStatement (chars (asStatement body (pieces body) c)) := by
  cases param with
  | none => exact ends_clause ps (mark "catch") _
  | some p =>
    refine ends_blank (ps ++ [blank, mark "catch", blank, mark "("] ++
      asOperand p (pieces p) Level.assign c ++ [mark ")"]) ?_
    show ps ++ ([blank, mark "catch", blank] ++ (mark "(" :: asOperand p (pieces p) Level.assign c ++
      [mark ")", blank]) ++ asStatement body (pieces body) c) = _
    simp

theorem catchClause_other {t : Tree} (h : ∀ param body, t ≠ .mk (.catchClause param body)) : catchClause t c = [] := by
  obtain ⟨n⟩ := t
  cases n with
  | catchClause param body => exact absurd rfl (h param body)
  | _ => rfl

theorem ends_block (body : List Tree) : endsStatement (chars (block body c)) = true := by
  cases body with
  | nil => exact ends_mark [mark "\x7b"] (.inr rfl)
  | cons s rest => exact ends_brace _ _ (.inr rfl)

theorem ends_classBody (t : Tree) : endsStatement (chars (classBody t c)) = true := by
  have hempty : endsStatement (chars [mark "\x7b", mark "\x7d"]) = true := ends_mark [mark "\x7b"] (.inr rfl)
  obtain ⟨n⟩ := t
  cases n with
  | classBody members =>
    cases members with
    | nil => exact hempty
    | cons m rest => exact ends_brace _ _ (.inr rfl)
  | _ => exact hempty

/-- What is no statement gets a semicolon. -/
theorem ends_expression {t : Tree} (h : t.node.isStatement = false) (hv : ∀ text, t.node ≠ .verbatim text) :
    endsStatement (chars (asStatement t (pieces t) c)) = true := by
  unfold asStatement
  split
  next text he => exact absurd he (hv text)
  next =>
    rw [h, if_neg Bool.false_ne_true]
    exact ends_mark _ (.inl rfl)

theorem closed_iff (t : Tree) (c : PrintContext) :
    endsStatement (chars (asStatement t (pieces t) c)) = !t.endsOpen := by
  unfold endsOpen
  -- A statement that ends with another one ends as that does.
  fun_induction trailing t with
  | case1 test consequent alternate ih =>
    rw [← ih]
    exact ends_clause _ _ _
  | case2 test consequent ih =>
    rw [← ih]
    show endsStatement (chars (_ ++ [mark ")", blank] ++ asStatement consequent (pieces consequent) c ++ [])) = _
    rw [List.append_nil]
    exact ends_body _ _ _
  | case3 init test update body ih =>
    rw [← ih]
    cases init <;> cases test <;> cases update <;> exact ends_body _ _ _
  | case4 left right body ih => rw [← ih]; exact ends_body _ _ _
  | case5 left right body isAwait ih => rw [← ih]; exact ends_body _ _ _
  | case6 test body ih => rw [← ih]; exact ends_body _ _ _
  | case7 label body ih => rw [← ih]; exact ends_body _ _ _
  | case8 block handler finalizer ih =>
    rw [← ih]
    cases handler <;> exact ends_clause _ _ _
  | case9 block param body ih =>
    rw [← ih]
    show endsStatement (chars (_ ++ catchClause (.mk (.catchClause param body)) c ++ [])) = _
    rw [List.append_nil]
    exact ends_catch _ _ _
  | case10 block handler hh ih =>
    rw [← ih]
    cases handler with
    | none =>
      show endsStatement (chars ([] ++ [mark "try", blank] ++ asStatement block (pieces block) c ++ [] ++ [])) = _
      rw [List.append_nil, List.append_nil]
      exact ends_body _ _ _
    | some h =>
      show endsStatement (chars ([] ++ [mark "try", blank] ++ asStatement block (pieces block) c ++ catchClause h c ++ [])) = _
      rw [List.append_nil, catchClause_other fun param body he => hh param body (by rw [he]), List.append_nil]
      exact ends_body _ _ _
  | case11 id params body isAsync generator ih =>
    rw [← ih]
    cases id <;> exact ends_body _ _ _
  | case12 t h1 h2 h3 h4 h5 h6 h7 h8 h9 h10 h11 =>
    -- nothing trails, so the last character is one the printer puts there, or one of a verbatim text
    obtain ⟨n⟩ := t
    cases n with
    | verbatim text =>
      show endsStatement (chars [leaf text]) = !!endsStatement text.toList
      simp
    | expressionStatement e => exact ends_mark _ (.inl rfl)
    | blockStatement body => exact ends_block body
    | emptyStatement => exact ends_mark [] (.inl rfl)
    | returnStatement argument => cases argument <;> exact ends_mark _ (.inl rfl)
    | breakStatement label => cases label <;> exact ends_mark _ (.inl rfl)
    | continueStatement label => cases label <;> exact ends_mark _ (.inl rfl)
    | throwStatement e => exact ends_mark _ (.inl rfl)
    | switchStatement discriminant cases => exact ends_brace _ _ (.inr rfl)
    | doWhileStatement body test => exact ends_brace _ _ (.inl rfl)
    | variableDeclaration kind ds => exact ends_mark _ (.inl rfl)
    | classDeclaration k =>
      obtain ⟨id, superClass, body⟩ := k
      have hbody : endsStatement (chars (pieces (.mk (.classDeclaration ⟨id, superClass, body⟩)) c)) =
          endsStatement (chars (classBody body c)) := by
        cases id <;> cases superClass <;> exact ends_blank _ rfl
      exact hbody.trans (ends_classBody body)
    | ifStatement test consequent alternate =>
      cases alternate with
      | none => exact (h2 _ _ rfl).elim
      | some alternate => exact (h1 _ _ _ rfl).elim
    | forStatement => exact (h3 _ _ _ _ rfl).elim
    | forInStatement => exact (h4 _ _ _ rfl).elim
    | forOfStatement => exact (h5 _ _ _ _ rfl).elim
    | whileStatement => exact (h6 _ _ rfl).elim
    | labeledStatement => exact (h7 _ _ rfl).elim
    | tryStatement block handler finalizer =>
      cases finalizer with
      | none => exact (h10 _ _ rfl).elim
      | some finalizer => exact (h8 _ _ _ rfl).elim
    | functionDeclaration f => exact (h11 _ _ _ _ _ rfl).elim
    | _ => exact ends_expression rfl nofun

end Tree

end Graft
