import Graft.Proofs.Print.Enclosing
import Graft.Proofs.Syntax.Chains
/-!
# What a tree leaves outside of brackets

`Tree.WellFormed` says which trees the grammar allows, opaque texts apart. Whatever such a tree prints has its brackets in pairs,
and where it is an expression or a pattern it is clear: outside of brackets there is no semicolon, and in a context without `in` no
`in` (`Tree.Contained`). The first clause of a loop is printed in such a context.
-/

namespace Graft

open Lexical
open Piece (blank leaf line mark)

namespace Node
variable {α : Type}

/-- The texts of a node that are tokens by themselves. -/
def words : Node α → List String
  | .identifier name => [name]
  | .privateIdentifier name => ["#" ++ name]
  | .literal _ raw => [raw]
  | .unaryExpression operator _ => [operator]
  | .updateExpression operator _ _ => [operator]
  | .binaryExpression operator _ _ => [operator]
  | .logicalExpression operator _ _ => [operator]
  | .assignmentExpression operator _ _ => [operator]
  | _ => []

/-- No text is a bracket or a semicolon, and `in` is a comparison or the name of a member. -/
def Spelled (σ : Slot) (n : Node α) : Prop :=
  ∀ w ∈ n.words, isBracket w = false ∧ w ≠ ";" ∧ (w = "in" → n.isBareIn = true ∨ σ = .memberName ∨ σ = .key)

/-- Nodes that stand among operators: expressions, patterns and their parts. -/
def isOperand : Node α → Bool
  | .identifier _ | .privateIdentifier _ | .literal .. | .thisExpression | .super | .arrayExpression _ | .objectExpression _
  | .functionExpression _ | .arrowFunctionExpression _ | .classExpression _ | .spreadElement _ | .unaryExpression ..
  | .updateExpression .. | .binaryExpression .. | .logicalExpression .. | .assignmentExpression .. | .conditionalExpression ..
  | .callExpression .. | .newExpression .. | .memberExpression .. | .chainExpression _ | .sequenceExpression _
  | .awaitExpression _ | .objectPattern _ | .arrayPattern _ | .restElement _ | .assignmentPattern .. => true
  | _ => false

end Node

namespace Slot
variable {α : Type}

/-- Only nodes that stand among operators are allowed here, and no name that may be any word. -/
def takesOperand : Slot → Bool
  | .expression | .item | .subject | .method | .pattern | .element | .target | .name => true
  | _ => false

theorem isOperand_of_allows {σ : Slot} {n : Node α} (hσ : σ.takesOperand = true) (h : σ.allows n = true)
    (hv : n.isVerbatim = false) : n.isOperand = true := by
  cases n <;> first | rfl | (cases σ <;> first | exact Bool.noConfusion hσ | exact Bool.noConfusion h | exact Bool.noConfusion hv)

end Slot

namespace Tree
variable {t u : Tree} {σ τ : Slot} {c : PrintContext}

/-- Every node is allowed where it stands, none is opaque, the texts are words, and an optional chain ends in a member access or
a call. -/
inductive WellFormed : Slot → Tree → Prop
  | mk {σ : Slot} {n : Node Tree} (allowed : σ.allows n = true) (parsed : n.isVerbatim = false) (spelled : n.Spelled σ)
    (linked : ∀ e ∈ n.chained, e.node.isLink = true) (below : ∀ p ∈ n.places σ, WellFormed p.2 p.1) : WellFormed σ (.mk n)

namespace WellFormed

theorem iff_mk {n : Node Tree} : WellFormed σ (.mk n) ↔ σ.allows n = true ∧ n.isVerbatim = false ∧ n.Spelled σ ∧
    (∀ e ∈ n.chained, e.node.isLink = true) ∧ ∀ p ∈ n.places σ, WellFormed p.2 p.1 :=
  ⟨fun | .mk h1 h2 h3 h4 h5 => ⟨h1, h2, h3, h4, h5⟩, fun ⟨h1, h2, h3, h4, h5⟩ => .mk h1 h2 h3 h4 h5⟩

theorem allows (h : WellFormed σ t) : σ.allows t.node = true := by
  cases h with
  | mk h => exact h

theorem isOperand_of_isExpression (h : WellFormed σ t) (he : t.node.isExpression = true) : t.node.isOperand = true := by
  cases h with
  | @mk _ n _ hv => cases n <;> first | rfl | exact Bool.noConfusion he | exact Bool.noConfusion hv

theorem isOperand (h : WellFormed σ t) (hσ : σ.takesOperand = true) : t.node.isOperand = true := by
  cases h with
  | mk h hv => exact Slot.isOperand_of_allows hσ h hv

end WellFormed

/-- What all printed forms of a tree leave outside of brackets, those that its owner shows included. -/
structure Contained (σ : Slot) (t : Tree) : Prop where
  paired : t.PrintsPaired
  clear : t.node.isOperand = true → σ ≠ .memberName → σ ≠ .key → t.PrintsClear
  enclosed : t.node.isBlock = true → t.PrintsEnclosed
  head (c : PrintContext) : Clear c.noIn (head t c)
  declarator (c : PrintContext) : Clear c.noIn (declarator t c)
  signature (c : PrintContext) : Paired (signatureAndBody t c)
  handler (c : PrintContext) : Paired (catchClause t c)
  switchCase (c : PrintContext) : Paired (switchCase t c)
  classBody (c : PrintContext) : Enclosed (classBody t c)
  classMember (c : PrintContext) : Paired (classMember t c)

/-- The first clause of a loop as it is printed. -/
def initializer (init : Option Tree) (c : PrintContext) : Pieces :=
  match init with
  | some t => asOperand t (asHead t (Tree.head t) (pieces t)) Level.sequence c.withoutIn
  | none => []

/-- A later clause. -/
def laterClause (e : Option Tree) (c : PrintContext) : Pieces :=
  match e with
  | some t => .blank :: asOperand t (pieces t) Level.sequence c
  | none => []

theorem pieces_forStatement (init test update : Option Tree) (body : Tree) (c : PrintContext) :
    pieces (.mk (.forStatement init test update body)) c =
      [mark "for", blank, mark "("] ++ initializer init c ++ [mark ";"] ++ laterClause test c ++ [mark ";"] ++
        laterClause update c ++ [mark ")", blank] ++ asStatement body (pieces body) c := by
  cases init <;> cases test <;> cases update <;> rfl

/-- The head of a loop is a declaration without its semicolon, or an expression in brackets where need be. -/
theorem clear_asHead {least : Nat} (hhead : ∀ c, Clear c.noIn (Tree.head t c)) (h : t.node.isOperand = true → t.PrintsClear)
    (hn : t.node.isOperand = true ∨ ∃ kind declarations, t.node = .variableDeclaration kind declarations) :
    Clear c.noIn (asOperand t (asHead t (Tree.head t) (pieces t)) least c) := by
  refine clear_asOperand fun c => ?_
  obtain ⟨n⟩ := t
  rcases hn with hn | ⟨kind, declarations, hn⟩
  · have hplain : asHead (.mk n) (Tree.head (.mk n)) (pieces (.mk n)) = pieces (.mk n) := by
      cases n <;> first | rfl | cases hn
    rw [hplain]
    exact h hn c
  · cases hn
    exact (hhead c).weaken _

section Nodes
variable {n : Node Tree} (kids : ∀ p ∈ n.places σ, WellFormed p.2 p.1 ∧ Contained p.2 p.1)
include kids

theorem paired_kids : ∀ u ∈ n.children, u.PrintsPaired := by
  intro u hu
  rw [← Node.map_fst_places σ] at hu
  obtain ⟨p, hp, rfl⟩ := List.mem_map.1 hu
  exact (kids p hp).2.paired

theorem paired_operand {least : Nat} (h : u ∈ n.children) : Paired (asOperand u (pieces u) least c) :=
  paired_asOperand (paired_kids kids u h)

theorem paired_body (h : u ∈ n.children) : Paired (asStatement u (pieces u) c) := paired_asStatement (paired_kids kids u h)

theorem clear_kid (h : (u, τ) ∈ n.places σ) (hτ : τ.takesOperand = true) : u.PrintsClear := by
  refine (kids _ h).2.clear ((kids _ h).1.isOperand hτ) ?_ ?_
  · rintro rfl
    cases hτ
  · rintro rfl
    cases hτ

theorem clear_operand {least : Nat} (h : (u, τ) ∈ n.places σ) (hτ : τ.takesOperand = true) :
    Clear c.noIn (asOperand u (pieces u) least c) :=
  clear_asOperand (clear_kid kids h hτ)

theorem clear_clause {least : Nat} (h : (u, τ) ∈ n.places σ) (hτ : τ = .clause ∨ τ = .loopTarget) :
    Clear c.noIn (asOperand u (asHead u (head u) (pieces u)) least c) := by
  obtain ⟨hw, hu⟩ := kids _ h
  refine clear_asHead hu.head (fun ho => hu.clear ho ?_ ?_) ?_
  · rcases hτ with rfl | rfl <;> nofun
  · rcases hτ with rfl | rfl <;> nofun
  · cases hw with
    | @mk _ n ha hv =>
      rcases hτ with rfl | rfl <;> cases n <;>
        first | exact .inl rfl | exact .inr ⟨_, _, rfl⟩ | exact Bool.noConfusion ha | exact Bool.noConfusion hv

theorem clear_func {f : Func Tree} (hn : n.places σ = Node.funcPlaces τ f) :
    (∀ t ∈ f.id, t.PrintsClear) ∧ ∀ t ∈ f.params, t.PrintsClear := by
  have hid (t : Tree) (ht : t ∈ f.id) : (t, Slot.name) ∈ n.places σ := by
    rw [hn]
    simp [Node.funcPlaces, Option.mem_def.1 ht]
  have hparams (t : Tree) (ht : t ∈ f.params) : (t, Slot.element) ∈ n.places σ := by
    rw [hn]
    simp [Node.funcPlaces, ht]
  exact ⟨fun t ht => clear_kid kids (hid t ht) rfl, fun t ht => clear_kid kids (hparams t ht) rfl⟩

/-- The body of a function that is no arrow is a block. -/
theorem clear_ofFunction {f : Func Tree} (hn : n.places σ = Node.funcPlaces .block f) : Clear c.noIn (function f c) := by
  obtain ⟨hw, hb⟩ := kids (f.body, .block) (by simp [hn, Node.funcPlaces])
  obtain ⟨hid, hparams⟩ := clear_func kids hn
  exact clear_function hid hparams hw.allows (hb.enclosed hw.allows)

theorem clear_ofArrow {f : Func Tree} (hn : n.places σ = Node.funcPlaces .arrowBody f) : Clear c.noIn (arrow f c) := by
  obtain ⟨hw, hb⟩ := kids (f.body, .arrowBody) (by simp [hn, Node.funcPlaces])
  refine clear_arrow (clear_func kids hn).2 ?_
  rcases Node.of_arrowBody hw.allows with ⟨hblock, -⟩ | ⟨hblock, he, -⟩
  · exact .inl ⟨hblock, hb.enclosed hblock⟩
  · exact .inr ⟨hblock, hb.clear (hw.isOperand_of_isExpression he) (by simp) (by simp)⟩

theorem clear_ofClass {k : ClassParts Tree} (hn : n.places σ = Node.classPlaces k) : Clear c.noIn (classPieces k c) := by
  have hid (t : Tree) (ht : t ∈ k.id) : (t, Slot.name) ∈ n.places σ := by
    rw [hn]
    simp [Node.classPlaces, Option.mem_def.1 ht]
  have hsuper (t : Tree) (ht : t ∈ k.superClass) : (t, Slot.expression) ∈ n.places σ := by
    rw [hn]
    simp [Node.classPlaces, Option.mem_def.1 ht]
  have hbody : (k.body, Slot.classBody) ∈ n.places σ := by
    rw [hn]
    simp [Node.classPlaces]
  exact clear_classPieces (fun t ht => clear_kid kids (hid t ht) rfl) (fun t ht => clear_kid kids (hsuper t ht) rfl)
    (kids _ hbody).2.classBody

/-- A declaration in the head of a loop. -/
theorem clear_head : Clear c.noIn (head (.mk n) c) := by
  cases n with
  | variableDeclaration kind declarations =>
    have hd (d : Tree) (h : d ∈ declarations) (c : PrintContext) : Clear c.noIn (asDeclarator d (declarator d) (pieces d) c) := by
      obtain ⟨hw, hd⟩ := kids (d, σ.ofDeclarator kind) (by simp [Node.places, h])
      have hdeclarator : asDeclarator d (declarator d) (pieces d) = declarator d := by
        obtain ⟨n⟩ := d
        have ha := hw.allows
        unfold Slot.ofDeclarator at ha
        split at ha <;> cases n <;> first | rfl | cases ha
      rw [hdeclarator]
      exact hd.declarator c
    have hword : Clear c.noIn [mark kind.word] := by cases kind <;> exact clear_fixed rfl
    exact hword.cons (Passes.cons (clear_fixed rfl) (clear_declarators hd))
  | _ => exact .nil

theorem clear_declarator : Clear c.noIn (declarator (.mk n) c) := by
  cases n with
  | variableDeclarator id init =>
    have hid : Clear c.noIn (asOperand id (pieces id) Level.assign c) :=
      clear_operand kids (by simp [Node.places] : (id, Slot.pattern) ∈ _) rfl
    cases init with
    | none => exact hid.append .nil
    | some e =>
      have he : Clear c.noIn (asOperand e (pieces e) Level.assign c) :=
        clear_operand kids (by simp [Node.places] : (e, Slot.expression) ∈ _) rfl
      exact hid.append (Passes.append (clear_fixed rfl) he)
  | _ => exact .nil

theorem paired_signatureAndBody : Paired (signatureAndBody (.mk n) c) := by
  cases n with
  | functionDeclaration f | functionExpression f | arrowFunctionExpression f =>
    exact paired_signature (clear_func kids rfl).2 (paired_kids kids _ (by simp [Node.children, Node.fields, Func.fields]))
  | _ => exact .nil

theorem paired_catchClause : Paired (catchClause (.mk n) c) := by
  cases n with
  | catchClause param body =>
    have hbody : Paired (asStatement body (pieces body) c) := paired_body kids (by simp [Node.children, Node.fields])
    cases param with
    | none => exact Passes.append (Passes.append (paired_fixed rfl) .nil) hbody
    | some p =>
      have hp : Paired (asOperand p (pieces p) Level.assign c) := paired_operand kids (by simp [Node.children, Node.fields])
      have hopen : Passes (fun _ => True) [] [mark "("] [.round] := paired_fixed rfl
      have hclose : Passes (fun _ => True) [.round] [mark ")", blank] [] := paired_fixed rfl
      exact Passes.append (Passes.append (paired_fixed rfl) ((hopen.cons hp.inside).append hclose)) hbody
  | _ => exact .nil

theorem paired_switchCase : Paired (switchCase (.mk n) c) := by
  cases n with
  | switchCase test consequent =>
    have hlines : Paired (lines consequent c.deeper) :=
      paired_lines fun t ht => paired_kids kids t (by simp [Node.children, Node.fields, ht])
    cases test with
    | none => exact Passes.append (.cons (paired_fixed rfl) (paired_fixed rfl)) hlines
    | some t =>
      have ht : Paired (asOperand t (pieces t) Level.sequence c) := paired_operand kids (by simp [Node.children, Node.fields])
      exact Passes.append (.cons (paired_fixed rfl) (.append (.append (paired_fixed rfl) ht) (paired_fixed rfl))) hlines
  | _ => exact .nil

theorem paired_classMember : Paired (classMember (.mk n) c) := by
  cases n with
  | methodDefinition key value kind computed isStatic =>
    have hkey : Paired (asKey computed key (pieces key) c) :=
      paired_asKey (paired_kids kids key (by simp [Node.children, Node.fields]))
    have hstatic : Paired (optionally isStatic [mark "static", blank]) := by cases isStatic <;> exact paired_fixed rfl
    refine hstatic.append ?_
    split
    next f _ =>
      have hsignature := (kids (value, .method) (by simp [Node.places])).2.signature c
      refine Passes.append (Passes.append ?_ hkey) hsignature
      cases kind <;> cases f.isAsync <;> cases f.generator <;> exact paired_fixed rfl
    next =>
      have hvalue : Paired (asOperand value (pieces value) Level.assign c) :=
        paired_operand kids (by simp [Node.children, Node.fields])
      exact Passes.append (hkey.append (paired_fixed rfl)) hvalue
  | propertyDefinition key value computed isStatic =>
    have hkey : Paired (asKey computed key (pieces key) c) :=
      paired_asKey (paired_kids kids key (by simp [Node.children, Node.fields]))
    have hstatic : Paired (optionally isStatic [mark "static", blank]) := by cases isStatic <;> exact paired_fixed rfl
    have hsemicolon : Paired [mark ";"] := paired_fixed rfl
    cases value with
    | none => exact ((hstatic.append hkey).append .nil).append hsemicolon
    | some e =>
      have he : Paired (asOperand e (pieces e) Level.assign c) := paired_operand kids (by simp [Node.children, Node.fields])
      exact ((hstatic.append hkey).append (Passes.append (paired_fixed rfl) he)).append hsemicolon
  | _ => exact .nil

theorem paired_members {members : List Tree} (hn : n = .classBody members) : Paired (memberLines members c) := by
  subst hn
  refine paired_memberLines fun m hm c => ?_
  obtain ⟨hw, h⟩ := kids (m, .classMember) (by simp [Node.places, hm])
  have hmember : asMember m (classMember m) (pieces m) = classMember m := by
    cases hw with
    | @mk _ n ha hv => cases n <;> first | rfl | exact Bool.noConfusion ha | exact Bool.noConfusion hv
  rw [hmember]
  exact h.classMember c

theorem enclosed_classBody : Enclosed (classBody (.mk n) c) := by
  cases n with
  | classBody members =>
    have hmembers : Paired (memberLines members c.deeper) := paired_members kids rfl
    intro q s
    have hopen : Passes q s [mark "\x7b"] (.curly :: s) := .opens rfl .done
    have hclose : Passes q (.curly :: s) [line c.depth, mark "\x7d"] s := .closes rfl .done
    show Passes q s (if members.isEmpty then [_, _] else _) s
    split
    next => exact enclosed_group rfl rfl .nil q s
    next => exact (hopen.cons hmembers.inside).append hclose
  | _ => exact enclosed_group rfl rfl .nil

theorem clear_initializer {init test update : Option Tree} {body : Tree} (hn : n = .forStatement init test update body) :
    Clear true (initializer init c) := by
  subst hn
  cases init with
  | none => exact .nil
  | some t => exact clear_clause kids (c := c.withoutIn) (by simp [Node.places] : (t, Slot.clause) ∈ _) (.inl rfl)

theorem paired_laterClause {e : Option Tree} (h : ∀ t ∈ e, t ∈ n.children) : Paired (laterClause e c) := by
  cases e with
  | none => exact .nil
  | some t => exact .cons (paired_fixed rfl) (paired_operand kids (h t rfl))

theorem paired_ifStatement {test consequent : Tree} {alternate : Option Tree} (hn : n = .ifStatement test consequent alternate) :
    Paired (pieces (.mk (.ifStatement test consequent alternate)) c) := by
  subst hn
  have ht : Paired (asOperand test (pieces test) Level.sequence c) := paired_operand kids (by simp [Node.children, Node.fields])
  have hs (c : PrintContext) : Paired (asStatement consequent (pieces consequent) c) :=
    paired_body kids (by simp [Node.children, Node.fields])
  have hconsequent : Paired (if alternate.isSome && hasDanglingIf consequent then
        [mark "\x7b", line (c.depth + 1)] ++ asStatement consequent (pieces consequent) c.deeper.withIn ++
          [line c.depth, mark "\x7d"]
      else asStatement consequent (pieces consequent) c) := by
    split
    next => exact Passes.append (.append (paired_fixed rfl) (hs _).inside) (paired_fixed rfl)
    next => exact hs c
  have halternate : Paired (alternate.elim [] fun s => [blank, mark "else", blank] ++ asStatement s (pieces s) c) :=
    passes_elim fun s hs =>
      .append (paired_fixed rfl) (paired_body kids (by simp [Node.children, Node.fields, Option.mem_def.1 hs]))
  cases alternate <;>
    exact Passes.append (.append (.append (.append (paired_fixed rfl) ht.inside) (paired_fixed rfl)) hconsequent) halternate

theorem paired_forStatement {init test update : Option Tree} {body : Tree} (hn : n = .forStatement init test update body) :
    Paired (pieces (.mk (.forStatement init test update body)) c) := by
  subst hn
  have hinit : Paired (initializer init c) := (clear_initializer kids rfl).paired
  have htest : Paired (laterClause test c) :=
    paired_laterClause kids fun t ht => by simp [Node.children, Node.fields, Option.mem_def.1 ht]
  have hupdate : Paired (laterClause update c) :=
    paired_laterClause kids fun t ht => by simp [Node.children, Node.fields, Option.mem_def.1 ht]
  have hbody : Paired (asStatement body (pieces body) c) := paired_body kids (by simp [Node.children, Node.fields])
  rw [pieces_forStatement]
  exact .append (.append (.append (.append (.append (.append (.append (paired_fixed rfl) hinit.inside) (paired_fixed rfl))
    htest.inside) (paired_fixed rfl)) hupdate.inside) (paired_fixed rfl)) hbody

/-- Statements. -/
theorem paired_statement (h : n.isStatement = true) : Paired (pieces (.mk n) c) := by
  cases n with
  | expressionStatement e =>
    have he : Paired (asOperand e (pieces e) Level.sequence c) := paired_operand kids (by simp [Node.children, Node.fields])
    have hstart : Paired (if needsStatementParens e then mark "(" :: asOperand e (pieces e) Level.sequence c ++ [mark ")"]
        else asOperand e (pieces e) Level.sequence c) := by
      split
      next => exact enclosed_group rfl rfl he _ _
      next => exact he
    exact hstart.append (paired_fixed rfl)
  | blockStatement body =>
    exact enclosed_block (fun t ht => paired_kids kids t (by simpa [Node.children, Node.fields] using ht)) _ _
  | emptyStatement => exact paired_fixed rfl
  | returnStatement argument =>
    cases argument with
    | none => exact paired_fixed rfl
    | some e =>
      have he : Paired (asOperand e (pieces e) Level.sequence c) := paired_operand kids (by simp [Node.children, Node.fields])
      exact Passes.append (.cons (paired_fixed rfl) (.cons (paired_fixed rfl) he)) (paired_fixed rfl)
  | throwStatement e =>
    have he : Paired (asOperand e (pieces e) Level.sequence c) := paired_operand kids (by simp [Node.children, Node.fields])
    exact Passes.append (.cons (paired_fixed rfl) (.cons (paired_fixed rfl) he)) (paired_fixed rfl)
  | ifStatement => exact paired_ifStatement kids rfl
  | forStatement => exact paired_forStatement kids rfl
  | forInStatement left right body =>
    have hleft : Clear c.noIn (asOperand left (asHead left (head left) (pieces left)) Level.call c) :=
      clear_clause kids (by simp [Node.places] : (left, Slot.loopTarget) ∈ _) (.inr rfl)
    have hright : Paired (asOperand right (pieces right) Level.sequence c) :=
      paired_operand kids (by simp [Node.children, Node.fields])
    have hbody : Paired (asStatement body (pieces body) c) := paired_body kids (by simp [Node.children, Node.fields])
    exact Passes.append (.append (.append (.append (.append (paired_fixed rfl) hleft.paired.inside) (paired_fixed rfl))
      hright.inside) (paired_fixed rfl)) hbody
  | forOfStatement left right body isAwait =>
    have hleft : Clear c.noIn (asOperand left (asHead left (head left) (pieces left)) Level.call c) :=
      clear_clause kids (by simp [Node.places] : (left, Slot.loopTarget) ∈ _) (.inr rfl)
    have hright : Paired (asOperand right (pieces right) Level.assign c) :=
      paired_operand kids (by simp [Node.children, Node.fields])
    have hbody : Paired (asStatement body (pieces body) c) := paired_body kids (by simp [Node.children, Node.fields])
    have hawait : Paired (optionally isAwait [mark "await", blank]) := by cases isAwait <;> exact paired_fixed rfl
    exact Passes.append (.append (.append (.append (.append (.append (.append (paired_fixed rfl) hawait) (paired_fixed rfl))
      hleft.paired.inside) (paired_fixed rfl)) hright.inside) (paired_fixed rfl)) hbody
  | whileStatement test body =>
    have ht : Paired (asOperand test (pieces test) Level.sequence c) := paired_operand kids (by simp [Node.children, Node.fields])
    have hb : Paired (asStatement body (pieces body) c) := paired_body kids (by simp [Node.children, Node.fields])
    exact Passes.append (.append (.append (paired_fixed rfl) ht.inside) (paired_fixed rfl)) hb
  | doWhileStatement body test =>
    have ht : Paired (asOperand test (pieces test) Level.sequence c) := paired_operand kids (by simp [Node.children, Node.fields])
    have hb : Paired (asStatement body (pieces body) c) := paired_body kids (by simp [Node.children, Node.fields])
    exact Passes.append (.append (.append (.append (paired_fixed rfl) hb) (paired_fixed rfl)) ht.inside) (paired_fixed rfl)
  | breakStatement label | continueStatement label =>
    cases label with
    | none => exact paired_fixed rfl
    | some l =>
      have hl : Paired (asOperand l (pieces l) Level.primary c) := paired_operand kids (by simp [Node.children, Node.fields])
      exact Passes.append (.cons (paired_fixed rfl) (.cons (paired_fixed rfl) hl)) (paired_fixed rfl)
  | tryStatement block handler finalizer =>
    have hb : Paired (asStatement block (pieces block) c) := paired_body kids (by simp [Node.children, Node.fields])
    have hhandler : Paired (handler.elim [] fun h => catchClause h c) :=
      passes_elim fun h hh => (kids (h, .handler) (by simp [Node.places, Option.mem_def.1 hh])).2.handler c
    have hfinalizer : Paired (finalizer.elim [] fun f => [blank, mark "finally", blank] ++ asStatement f (pieces f) c) :=
      passes_elim fun f hf =>
        .append (paired_fixed rfl) (paired_body kids (by simp [Node.children, Node.fields, Option.mem_def.1 hf]))
    cases handler <;> cases finalizer <;> exact Passes.append (.append (.append (paired_fixed rfl) hb) hhandler) hfinalizer
  | switchStatement discriminant cases =>
    have hd : Paired (asOperand discriminant (pieces discriminant) Level.sequence c) :=
      paired_operand kids (by simp [Node.children, Node.fields])
    have hcases : Paired (switchCases cases c.deeper) :=
      paired_switchCases fun s hs => (kids (s, .switchCase) (by simp [Node.places, hs])).2.switchCase
    exact Passes.append (.append (.append (.append (paired_fixed rfl) hd.inside) (paired_fixed rfl)) hcases.inside)
      (paired_fixed rfl)
  | labeledStatement label body =>
    have hl : Paired (asOperand label (pieces label) Level.primary c) :=
      paired_operand kids (by simp [Node.children, Node.fields])
    have hb : Paired (asStatement body (pieces body) c) := paired_body kids (by simp [Node.children, Node.fields])
    exact Passes.append (.append hl (paired_fixed rfl)) hb
  | variableDeclaration kind declarations =>
    have hhead : Paired (head (.mk (.variableDeclaration kind declarations)) c) := (clear_head kids).paired
    exact hhead.append (paired_fixed rfl)
  | functionDeclaration f =>
    exact (clear_ofFunction kids rfl).paired
  | classDeclaration k =>
    exact (clear_ofClass kids rfl).paired
  | _ => cases h

end Nodes

/-! ## Expressions -/

theorem clear_binaryPieces {operator : String} {l r : Tree} (hb : isBracket operator = false) (hs : operator ≠ ";")
    (hl : l.PrintsClear) (hr : r.PrintsClear) :
    Clear (c.noIn && !decide (operator = "in")) (binaryPieces operator l (pieces l) r (pieces r) c) := by
  have hoperator : Clear (c.noIn && !decide (operator = "in")) [blank, mark operator, blank] := by
    refine .cons (clear_fixed rfl) (.cons (.mark hb ⟨hs, fun hin => ?_⟩) (clear_fixed rfl))
    simpa using (Bool.and_eq_true_iff.1 hin).2
  unfold binaryPieces
  dsimp only
  split
  next hpower =>
    subst hpower
    exact (((clear_asForced hl).weaken _).append hoperator).append ((clear_asOperand hr).weaken _)
  next => exact (((clear_asForced hl).weaken _).append hoperator).append ((clear_asForced hr).weaken _)

theorem clear_elements {elements : List (Option Tree)} (h : ∀ t ∈ elements.filterMap id, t.PrintsClear) :
    Clear c.noIn (mark "[" :: slots elements c ++ optionally (isLastHole elements) [mark ","] ++ [mark "]"]) := by
  have hopen : Passes (Inline c.noIn) [] [mark "["] [.square] := clear_fixed rfl
  have hlast : Clear c.noIn (optionally (isLastHole elements) [mark ","]) := clear_optionally (clear_fixed rfl) _
  exact ((hopen.cons (clear_slots h).inside).append hlast.inside).append (clear_fixed rfl)

/-- A name behind a dot. -/
theorem pieces_memberName (h : WellFormed .memberName t) : ∃ w, isBracket w = false ∧ ∀ c, pieces t c = [leaf w] := by
  cases h with
  | @mk _ n ha _ hn =>
    cases n with
    | identifier name => exact ⟨name, (hn _ List.mem_cons_self).1, fun _ => rfl⟩
    | privateIdentifier name => exact ⟨_, (hn _ List.mem_cons_self).1, fun _ => rfl⟩
    | _ => cases ha

/-- A word of a node, where not any word may stand. -/
theorem clear_word {n : Node Tree} {w : String} (hn : n.Spelled σ) (hw : w ∈ n.words) (hin : n.isBareIn = false)
    (hm : σ ≠ .memberName) (hk : σ ≠ .key) {b : Bool} : isBracket w = false ∧ Inline b w := by
  obtain ⟨h1, h2, h3⟩ := hn w hw
  refine ⟨h1, h2, fun _ he => ?_⟩
  rcases h3 he with h | h | h
  · simp [hin] at h
  · exact hm h
  · exact hk h

section Nodes
variable {n : Node Tree} (kids : ∀ p ∈ n.places σ, WellFormed p.2 p.1 ∧ Contained p.2 p.1)
include kids

theorem paired_property {key value : Tree} {kind : PropertyKind} {computed shorthand method : Bool}
    (hn : n = .property key value kind computed shorthand method) :
    Paired (pieces (.mk (.property key value kind computed shorthand method)) c) := by
  subst hn
  have hkey : Paired (asKey computed key (pieces key) c) := paired_asKey (paired_kids kids key (by simp))
  have hvalue : Paired (asOperand value (pieces value) Level.assign c) := paired_operand kids (by simp)
  have hplain : Paired (asKey computed key (pieces key) c ++ [mark ":", blank] ++
      asOperand value (pieces value) Level.assign c) :=
    Passes.append (hkey.append (paired_fixed rfl)) hvalue
  show Paired (if shorthand && shorthandIntact key value then _ else if kind ≠ .init || method then (_ : Pieces) else _)
  split
  next => exact hvalue
  next =>
    split
    next =>
      split
      next f _ =>
        have hsignature := (kids (value, σ.value kind method) (by simp [Node.places])).2.signature c
        refine Passes.append (Passes.append ?_ hkey) hsignature
        cases kind <;> cases f.isAsync <;> cases f.generator <;> exact paired_fixed rfl
      next => exact hplain
    next => exact hplain

theorem clear_member {object member : Tree} {computed optional : Bool} (hn : n = .memberExpression object member computed optional) :
    Clear c.noIn (pieces (.mk (.memberExpression object member computed optional)) c) := by
  subst hn
  have ho : Clear c.noIn (asMemberObject object (pieces object) c) :=
    clear_asMemberObject (clear_kid kids (by simp [Node.places] : (object, Slot.expression) ∈ _) rfl)
  refine ho.append ?_
  cases computed with
  | true =>
    have hm : Clear c.noIn (asOperand member (pieces member) Level.sequence c) :=
      clear_operand kids (by simp [Node.places] : (member, Slot.expression) ∈ _) rfl
    have hoptional : Clear c.noIn (optionally optional [mark "?."]) := clear_optionally (clear_fixed rfl) _
    exact Passes.append (hoptional.append (.cons (clear_fixed rfl) hm.paired.inside)) (clear_fixed rfl)
  | false =>
    obtain ⟨w, hw, hmember⟩ := pieces_memberName (kids (member, .memberName) (by simp [Node.places])).1
    show Clear c.noIn (mark (if optional then "?." else ".") :: pieces member c)
    rw [hmember]
    cases optional <;> exact .member rfl ⟨by decide, fun _ => by decide⟩ hw

/-- Expressions and patterns. -/
theorem clear_expression (hn : n.Spelled σ) (hlinked : ∀ e ∈ n.chained, e.node.isLink = true) (h : n.isOperand = true)
    (hm : σ ≠ .memberName) (hk : σ ≠ .key) : Clear (c.noIn && !n.isBareIn) (pieces (.mk n) c) := by
  cases n with
  | binaryExpression operator l r =>
    obtain ⟨hb, hs, -⟩ := hn operator (by simp [Node.words])
    have hl : l.PrintsClear := by
      refine clear_kid kids (List.mem_cons_self : (l, if operator = "in" then Slot.subject else .expression) ∈ _) ?_
      split <;> rfl
    have hr : r.PrintsClear := clear_kid kids (by simp [Node.places] : (r, Slot.expression) ∈ _) rfl
    exact clear_binaryPieces hb hs hl hr
  | logicalExpression operator l r =>
    obtain ⟨hb, hs, hin⟩ := hn operator (by simp [Node.words])
    have hne : operator ≠ "in" := fun he => by simpa [Node.isBareIn, hm, hk] using hin he
    have hl : l.PrintsClear := clear_kid kids (by simp [Node.places] : (l, Slot.expression) ∈ _) rfl
    have hr : r.PrintsClear := clear_kid kids (by simp [Node.places] : (r, Slot.expression) ∈ _) rfl
    have hboth := clear_binaryPieces (c := c) hb hs hl hr
    rwa [decide_eq_false hne] at hboth
  | identifier name | privateIdentifier name | literal value raw =>
    obtain ⟨hb, hw⟩ := clear_word hn (List.mem_cons_self) rfl hm hk
    exact .leaf hb hw
  | thisExpression | super => exact .leaf rfl ⟨by decide, fun _ => by decide⟩
  | arrayExpression elements =>
    exact (clear_elements fun t ht => clear_kid kids (by simpa [Node.places] using ht : (t, Slot.item) ∈ _) rfl).weaken _
  | arrayPattern elements =>
    exact (clear_elements fun t ht => clear_kid kids (by simpa [Node.places] using ht : (t, Slot.element) ∈ _) rfl).weaken _
  | objectExpression properties | objectPattern properties =>
    exact enclosed_braced (fun t ht => paired_kids kids t (by simpa [Node.children, Node.fields] using ht)) _ _
  | functionExpression f => exact (clear_ofFunction kids rfl).weaken _
  | arrowFunctionExpression f => exact (clear_ofArrow kids rfl).weaken _
  | classExpression k => exact (clear_ofClass kids rfl).weaken _
  | spreadElement e =>
    have he : Clear c.noIn (asOperand e (pieces e) Level.assign c) :=
      clear_operand kids (by simp [Node.places] : (e, Slot.expression) ∈ _) rfl
    exact Clear.weaken (.cons (clear_fixed rfl) he) _
  | restElement e =>
    have he : Clear c.noIn (asOperand e (pieces e) Level.assign c) :=
      clear_operand kids (by simp [Node.places] : (e, Slot.pattern) ∈ _) rfl
    exact Clear.weaken (.cons (clear_fixed rfl) he) _
  | unaryExpression operator e =>
    obtain ⟨hb, hw⟩ := clear_word hn (List.mem_cons_self) rfl hm hk
    have he : Clear c.noIn (asOperand e (pieces e) Level.unary c) :=
      clear_operand kids (by simp [Node.places] : (e, Slot.expression) ∈ _) rfl
    exact Clear.weaken (.append (.cons (.mark hb hw) (clear_optionally (clear_fixed rfl) _)) he) _
  | updateExpression operator isBefore e =>
    obtain ⟨hb, hw⟩ := clear_word hn (List.mem_cons_self) rfl hm hk
    have he (least : Nat) : Clear c.noIn (asOperand e (pieces e) least c) :=
      clear_operand kids (by simp [Node.places] : (e, Slot.expression) ∈ _) rfl
    cases isBefore with
    | true => exact Clear.weaken (.cons (.mark hb hw) (he _)) _
    | false => exact Clear.weaken ((he _).append (.mark hb hw)) _
  | assignmentExpression operator l r =>
    obtain ⟨hb, hw⟩ := clear_word hn (List.mem_cons_self) rfl hm hk
    have hl : Clear c.noIn (asOperand l (pieces l) Level.call c) :=
      clear_operand kids (by simp [Node.places] : (l, Slot.target) ∈ _) rfl
    have hr : Clear c.noIn (asOperand r (pieces r) Level.assign c) :=
      clear_operand kids (by simp [Node.places] : (r, Slot.expression) ∈ _) rfl
    exact Clear.weaken ((hl.append (.cons (clear_fixed rfl) (.cons (.mark hb hw) (clear_fixed rfl)))).append hr) _
  | assignmentPattern l r =>
    have hl : Clear c.noIn (asOperand l (pieces l) Level.call c) :=
      clear_operand kids (by simp [Node.places] : (l, Slot.pattern) ∈ _) rfl
    have hr : Clear c.noIn (asOperand r (pieces r) Level.assign c) :=
      clear_operand kids (by simp [Node.places] : (r, Slot.expression) ∈ _) rfl
    exact Clear.weaken (Passes.append (.append hl (clear_fixed rfl)) hr) _
  | conditionalExpression test yes no =>
    have ht : Clear c.noIn (asOperand test (pieces test) Level.nullish c) :=
      clear_operand kids (by simp [Node.places] : (test, Slot.expression) ∈ _) rfl
    have hy : Clear c.noIn (asOperand yes (pieces yes) Level.assign c) :=
      clear_operand kids (by simp [Node.places] : (yes, Slot.expression) ∈ _) rfl
    have hno : Clear c.noIn (asOperand no (pieces no) Level.assign c) :=
      clear_operand kids (by simp [Node.places] : (no, Slot.expression) ∈ _) rfl
    exact Clear.weaken (Passes.append (.append (.append (.append ht (clear_fixed rfl)) hy) (clear_fixed rfl)) hno) _
  | callExpression callee arguments optional =>
    have hc : Clear c.noIn (asChainObject callee (pieces callee) c) :=
      clear_asChainObject (clear_kid kids (by simp [Node.places] : (callee, Slot.expression) ∈ _) rfl)
    have ha : Clear c.noIn (listed arguments c) :=
      clear_listed fun t ht => clear_kid kids (by simp [Node.places, ht] : (t, Slot.item) ∈ _) rfl
    have hoptional : Clear c.noIn (optionally optional [mark "?."]) := clear_optionally (clear_fixed rfl) _
    refine Clear.weaken ?_ _
    exact Passes.append (.append (.append (.append hc hoptional) (clear_fixed rfl)) ha.paired.inside) (clear_fixed rfl)
  | newExpression callee arguments =>
    have hc : Clear c.noIn (asNewCallee callee (pieces callee) c) :=
      clear_asNewCallee (clear_kid kids (by simp [Node.places] : (callee, Slot.expression) ∈ _) rfl)
    have ha : Clear c.noIn (listed arguments c) :=
      clear_listed fun t ht => clear_kid kids (by simp [Node.places, ht] : (t, Slot.item) ∈ _) rfl
    refine Clear.weaken ?_ _
    exact Passes.append (.append (.append (.append (clear_fixed rfl) hc) (clear_fixed rfl)) ha.paired.inside) (clear_fixed rfl)
  | memberExpression => exact (clear_member kids rfl).weaken _
  | chainExpression e =>
    have he : e.PrintsClear := clear_kid kids (by simp [Node.places] : (e, Slot.expression) ∈ _) rfl
    have hlink : e.node.isBareIn = false := by
      have := hlinked e List.mem_cons_self
      cases hn : e.node <;> rw [hn] at this <;> first | rfl | cases this
    have := he c
    rwa [hlink] at this
  | sequenceExpression es =>
    exact Clear.weaken (clear_listed fun t ht => clear_kid kids (by simp [Node.places, ht] : (t, Slot.expression) ∈ _) rfl) _
  | awaitExpression e =>
    have he : Clear c.noIn (asOperand e (pieces e) Level.unary c) :=
      clear_operand kids (by simp [Node.places] : (e, Slot.expression) ∈ _) rfl
    exact Clear.weaken (.append (clear_fixed rfl) he) _
  | _ => cases h

end Nodes

/-! ## Trees -/

/-- The names of members and keys are single tokens. -/
theorem paired_anyWord {n : Node Tree} (hn : n.Spelled σ) (ha : σ.allows n = true) (hv : n.isVerbatim = false)
    (hσ : σ = .memberName ∨ σ = .key) : Paired (pieces (.mk n) c) := by
  cases n with
  | identifier name | privateIdentifier name | literal value raw => exact .leaf (hn _ List.mem_cons_self).1 trivial
  | _ => rcases hσ with rfl | rfl <;> first | exact Bool.noConfusion ha | exact Bool.noConfusion hv

theorem WellFormed.contained (h : WellFormed σ t) : Contained σ t := by
  induction h with
  | @mk σ n ha hv hn hlinked hbelow ih =>
    have kids (p : Tree × Slot) (hp : p ∈ n.places σ) : WellFormed p.2 p.1 ∧ Contained p.2 p.1 := ⟨hbelow p hp, ih p hp⟩
    have hclear (ho : n.isOperand = true) (hm : σ ≠ .memberName) (hk : σ ≠ .key) : PrintsClear (.mk n) :=
      fun c => clear_expression kids hn hlinked ho hm hk
    refine ⟨fun c => ?_, hclear, fun hb c => ?_, fun c => clear_head kids, fun c => clear_declarator kids,
      fun c => paired_signatureAndBody kids, fun c => paired_catchClause kids, fun c => paired_switchCase kids,
      fun c => enclosed_classBody kids, fun c => paired_classMember kids⟩
    · by_cases hσ : σ = .memberName ∨ σ = .key
      · exact paired_anyWord hn ha hv hσ
      · obtain ⟨hm, hk⟩ := not_or.1 hσ
        by_cases ho : n.isOperand = true
        · exact (hclear ho hm hk).paired c
        · by_cases hs : n.isStatement = true
          · exact paired_statement kids hs
          · cases n with
            | program body =>
              exact paired_programLines fun t ht => paired_kids kids t (by simpa [Node.children, Node.fields] using ht)
            | property => exact paired_property kids rfl
            | verbatim => cases hv
            | _ => first | exact .nil | exact absurd rfl ho | exact absurd rfl hs
    · cases n with
      | blockStatement body =>
        exact enclosed_block fun t ht => paired_kids kids t (by simpa [Node.children, Node.fields] using ht)
      | _ => cases hb

/-- The first clause of a loop that the grammar allows. -/
theorem WellFormed.clear_initializer {init test update : Option Tree} {body : Tree}
    (h : WellFormed σ (.mk (.forStatement init test update body))) : Clear true (initializer init c) := by
  cases h with
  | mk _ _ _ _ hbelow => exact Tree.clear_initializer (fun p hp => ⟨hbelow p hp, (hbelow p hp).contained⟩) rfl

end Tree
end Graft
