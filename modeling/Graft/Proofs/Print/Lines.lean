import Graft.Proofs.Print.Crossing
import Graft.Proofs.Print.Outline
/-!
# Statements of one line

The statements that end in a semicolon print as tokens that a reader of lines crosses (`Tree.Spelt.printsInLine`), and their first tokens
announce no other statement. So they are read as a line (`Tree.Spelt.line`).
-/

namespace Graft

open Lexical

namespace Tree
variable {σ : Slot} {t : Tree} {ts : List Tree} {c : PrintContext} {n m : Nat} {w : String}

theorem inLine_word (h : IsInline w) : inLine n w = some n := by
  obtain ⟨-, h⟩ := h
  simp only [List.mem_cons, List.not_mem_nil, or_false, not_or] at h
  rw [inLine, if_neg h.1, if_neg h.2.1, if_neg h.2.2]

/-- Whatever colons are asked for, the tree is crossed inside of a line. -/
def PrintsInLine (t : Tree) : Prop := ∀ n c, Crosses inLine n (pieces t c) n

theorem inLine_parenthesized (hp : t.PrintsPaired) : Crosses inLine n (parenthesized (pieces t) c) n :=
  crosses_parenthesized (n := 0) (follows_inLine n) hp

section Places
variable (hp : t.PrintsPaired) (h : t.PrintsInLine)
include hp h

theorem inLine_asOperand : Crosses inLine n (asOperand t (pieces t) m c) n := by
  unfold asOperand
  split
  next => exact inLine_parenthesized hp
  next => exact h n c

theorem inLine_asForced {force : Bool} : Crosses inLine n (asForced force t (pieces t) m c) n := by
  unfold asForced
  split
  next => exact inLine_parenthesized hp
  next => exact inLine_asOperand hp h

end Places

theorem inLine_binaryPieces {operator : String} (ho : IsInline operator) {l r : Tree} (hl : l.PrintsPaired ∧ l.PrintsInLine)
    (hr : r.PrintsPaired ∧ r.PrintsInLine) : Crosses inLine n (binaryPieces operator l (pieces l) r (pieces r) c) n := by
  have hoperator : Crosses inLine n [.blank, .mark operator, .blank] n := (Crosses.mark ho.1 (inLine_word ho)).congr rfl
  unfold binaryPieces
  dsimp only
  split
  next hpower =>
    subst hpower
    exact ((inLine_asForced hl.1 hl.2).append hoperator).append (inLine_asOperand hr.1 hr.2)
  next => exact ((inLine_asForced hl.1 hl.2).append hoperator).append (inLine_asForced hr.1 hr.2)

theorem inLine_listed (h : ∀ t ∈ ts, t.PrintsPaired ∧ t.PrintsInLine) : Crosses inLine n (listed ts c) n := by
  induction ts with
  | nil => exact .nil
  | cons t ts ih =>
    obtain ⟨hp, ht⟩ := h t List.mem_cons_self
    have hts := ih fun u hu => h u (List.mem_cons_of_mem _ hu)
    cases ts with
    | nil => simpa [listed] using inLine_asOperand hp ht
    | cons u us =>
      have hcomma : Crosses inLine n [.mark ",", .blank] n := (Crosses.mark rfl (inLine_word ⟨rfl, by decide⟩)).congr rfl
      rw [listed]
      · exact ((inLine_asOperand hp ht).append hcomma).append hts
      · exact List.cons_ne_nil u us

theorem inLine_mark (h : IsInline w) : Crosses inLine n [.mark w] n := .mark h.1 (inLine_word h)

/-- Expressions and patterns. -/
theorem Spelt.printsInLine (h : Spelt (fun _ => False) σ t) (hn : t.node.isPassed = true) (hm : σ ≠ .memberName)
    (hk : σ ≠ .key) : PrintsInLine t := by
  -- On the tree. What binds like a call is crossed by any reader; of the others every operand is crossed for itself.
  induction h with
  | @mk σ n ha hs hcomplete hlinked hbelow ih =>
    have hwhole : Spelt (fun _ => False) σ (.mk n) := .mk ha hs hcomplete hlinked hbelow
    have kids := hwhole.wellFormed.places
    have operand {u : Tree} {τ : Slot} (hu : (u, τ) ∈ n.places σ) (hτ : τ = .expression ∨ τ = .subject ∨ τ = .target) :
        u.PrintsPaired ∧ u.PrintsInLine := by
      refine ⟨(kids _ hu).2.paired, ih _ hu (isPassed_of_allows hτ (hbelow _ hu).allows) ?_ ?_⟩
      · rcases hτ with rfl | rfl | rfl <;> nofun
      · rcases hτ with rfl | rfl | rfl <;> nofun
    by_cases htight : Level.call ≤ (Tree.mk n).level ∧ (n.isExpression = true ∨ n.isDestructuring = true)
    · exact fun asked c => hwhole.crosses (follows_inLine asked) htight.2 hm hk htight.1 0 c
    intro asked c
    cases n with
    | privateIdentifier name =>
      have hw := Node.isValue_leaf rfl hs hm hk
      exact .leaf hw.1.1 (inLine_word hw.1)
    | unaryExpression operator e =>
      obtain ⟨hp, he⟩ := operand (u := e) List.mem_cons_self (.inl rfl)
      have hoperator : Crosses inLine asked [.mark operator] asked := inLine_mark (hs.inline _ List.mem_cons_self)
      refine (hoperator.append (inLine_asOperand (c := c) (m := Level.unary) hp he)).congr ?_
      show tokens (.mark operator :: optionally (unaryGap operator e) [.blank] ++ _) = _
      cases unaryGap operator e <;> simp [optionally]
    | updateExpression operator isBefore e =>
      obtain ⟨hp, he⟩ := operand (u := e) List.mem_cons_self (.inl rfl)
      have hoperator : Crosses inLine asked [.mark operator] asked := inLine_mark (hs.inline _ List.mem_cons_self)
      cases isBefore with
      | true => exact hoperator.cons (inLine_asOperand hp he)
      | false => exact (inLine_asOperand hp he).append hoperator
    | binaryExpression operator l r =>
      refine inLine_binaryPieces (hs.inline _ List.mem_cons_self) (operand (u := l) List.mem_cons_self ?_)
        (operand (u := r) (by simp [Node.places]) (.inl rfl))
      split
      · exact .inr (.inl rfl)
      · exact .inl rfl
    | logicalExpression operator l r =>
      exact inLine_binaryPieces (hs.inline _ List.mem_cons_self) (operand (u := l) List.mem_cons_self (.inl rfl))
        (operand (u := r) (by simp [Node.places]) (.inl rfl))
    | assignmentExpression operator l r =>
      obtain ⟨hpl, hl⟩ := operand (u := l) List.mem_cons_self (.inr (.inr rfl))
      obtain ⟨hpr, hr⟩ := operand (u := r) (by simp [Node.places]) (.inl rfl)
      have hoperator : Crosses inLine asked [.blank, .mark operator, .blank] asked :=
        (inLine_mark (hs.inline _ List.mem_cons_self)).congr rfl
      exact ((inLine_asOperand hpl hl).append hoperator).append (inLine_asOperand hpr hr)
    | conditionalExpression test yes no =>
      obtain ⟨hpt, ht⟩ := operand (u := test) List.mem_cons_self (.inl rfl)
      obtain ⟨hpy, hy⟩ := operand (u := yes) (by simp [Node.places]) (.inl rfl)
      obtain ⟨hpn, hn⟩ := operand (u := no) (by simp [Node.places]) (.inl rfl)
      have hasks : Crosses inLine asked [.blank, .mark "?", .blank] (asked + 1) := (Crosses.mark rfl rfl).congr rfl
      have hgives : Crosses inLine (asked + 1) [.blank, .mark ":", .blank] asked := (Crosses.mark rfl rfl).congr rfl
      exact ((((inLine_asOperand hpt ht).append hasks).append (inLine_asOperand hpy hy)).append hgives).append
        (inLine_asOperand hpn hn)
    | arrowFunctionExpression f =>
      obtain ⟨hbody, hcontained⟩ := kids (f.body, .arrowBody) (by simp [Node.places, Node.funcPlaces])
      have hparams : Paired (listed f.params c) := (clear_listed (clear_func kids rfl).2).paired
      have hhead : Crosses inLine asked (arrowHead f c) asked := by
        have hasync : Crosses inLine asked (optionally f.isAsync [.mark "async"]) asked := by
          cases f.isAsync with
          | true => exact inLine_mark ⟨rfl, by decide⟩
          | false => exact .nil
        have hlist := crosses_listed (n := 0) (follows_inLine asked) hparams
        have harrow : Crosses inLine asked [.mark "=>"] asked := inLine_mark ⟨rfl, by decide⟩
        refine ((hasync.append hlist).append harrow).congr ?_
        rw [arrowHead]
        cases f.isAsync <;> simp [optionally]
      cases hblock : f.body.node.isBlock with
      | true =>
        rw [pieces_arrow_block hblock]
        exact hhead.append (.grouped rfl rfl (hbody.grouped_body hblock) rfl)
      | false =>
        have hexpression : f.body.node.isExpression = true := by simpa [Slot.allows, hblock] using hbody.allows
        have hinline : f.body.PrintsInLine :=
          ih (f.body, .arrowBody) (by simp [Node.places, Node.funcPlaces]) (isPassed_of_allows (.inl rfl) hexpression)
            (by simp) (by simp)
        have hoperand := inLine_asOperand (n := asked) (c := c) (m := Level.assign) hcontained.paired hinline
        rw [pieces_arrow hblock, arrowBody]
        refine hhead.append ?_
        split
        next => exact .grouped rfl rfl (grouped_of_paired (paired_asOperand hcontained.paired)) rfl
        next => exact hoperand
    | sequenceExpression es => exact inLine_listed fun t ht => operand (by simp [Node.places, ht]) (.inl rfl)
    | awaitExpression e =>
      obtain ⟨hp, he⟩ := operand (u := e) List.mem_cons_self (.inl rfl)
      have hawait : Crosses inLine asked [.mark "await", .blank] asked := (inLine_mark ⟨rfl, by decide⟩).congr rfl
      exact hawait.append (inLine_asOperand hp he)
    | verbatim text => exact hs.elim
    | _ => first
      | exact absurd ⟨Nat.le_refl _, .inl rfl⟩ htight
      | exact absurd ⟨(by decide : Level.call ≤ Level.primary), .inl rfl⟩ htight
      | exact absurd ⟨(by decide : Level.call ≤ Level.primary), .inr rfl⟩ htight
      | cases hn

/-! ## Declarations -/

theorem Spelt.pattern_passed {kept : String → Prop} (h : Spelt kept .pattern t) : t.node.isPassed = true := by
  have ha : t.node.isPattern = true := h.allows
  cases hn : t.node <;> rw [hn] at ha <;> first | rfl | cases ha

theorem inLine_declarator {d : Tree} (hσ : σ = .declarator ∨ σ = .bareDeclarator) (h : Spelt (fun _ => False) σ d) :
    Crosses inLine n (asDeclarator d (declarator d) (pieces d) c) n := by
  rw [asDeclarator_eq (by rcases hσ with rfl | rfl; exacts [.inl h.wellFormed, .inr h.wellFormed])]
  obtain ⟨m⟩ := d
  have kids := h.wellFormed.places
  cases m with
  | variableDeclarator id init =>
    have hid : Spelt (fun _ => False) .pattern id := h.places (id, .pattern) List.mem_cons_self
    have hpattern := inLine_asOperand (n := n) (c := c) (m := Level.assign) (kids (id, .pattern) List.mem_cons_self).2.paired
      (hid.printsInLine hid.pattern_passed (by decide) (by decide))
    cases init with
    | none => exact hpattern.append .nil
    | some e =>
      have hplace : (e, Slot.expression) ∈ Node.places σ (.variableDeclarator id (some e)) := by simp [Node.places]
      have he : Spelt (fun _ => False) .expression e := h.places _ hplace
      have hvalue := inLine_asOperand (n := n) (c := c) (m := Level.assign) (kids _ hplace).2.paired
        (he.printsInLine (isPassed_of_allows (.inl rfl) he.allows) (by decide) (by decide))
      have hequals : Crosses inLine n [.blank, .mark "=", .blank] n := (inLine_mark ⟨rfl, by decide⟩).congr rfl
      exact hpattern.append (hequals.append hvalue)
  | _ =>
    have ha := h.allows
    rcases hσ with rfl | rfl <;> cases ha

theorem inLine_declarators {ds : List Tree}
    (h : ∀ d ∈ ds, ∃ σ, (σ = .declarator ∨ σ = .bareDeclarator) ∧ Spelt (fun _ => False) σ d) :
    Crosses inLine n (declarators ds c) n := by
  induction ds with
  | nil => exact .nil
  | cons d ds ih =>
    obtain ⟨σ, hσ, hd⟩ := h d List.mem_cons_self
    have hds := ih fun u hu => h u (List.mem_cons_of_mem _ hu)
    cases ds with
    | nil => simpa [declarators] using inLine_declarator hσ hd
    | cons u us =>
      have hcomma : Crosses inLine n [.mark ",", .blank] n := (inLine_mark ⟨rfl, by decide⟩).congr rfl
      rw [declarators]
      · exact ((inLine_declarator hσ hd).append hcomma).append hds
      · exact List.cons_ne_nil u us

end Tree

/-! ## First tokens -/

namespace Grammar

/-- The tokens that announce another statement than a line, or none. -/
def announcing : List String := ["\x7b", "if", "for", "while", "do", "try", "switch", "function", "class"] ++ continuations

theorem isLabel_plain {w : String} (h : isLabel w = true) : isBracket w = false ∧ w ≠ "?" := by
  refine ⟨?_, ?_⟩
  · by_contra hb
    rw [Bool.not_eq_false, isBracket, Bool.or_eq_true] at hb
    unfold opening? closing? at hb
    rcases hb with hb | hb
    · split at hb <;> first | (cases hb; done) | (revert h; decide)
    · split at hb <;> first | (cases hb; done) | (revert h; decide)
  · rintro rfl
    revert h
    decide

theorem lead_line {w : String} {us rest : List String} (hw : w ∉ announcing) (hasync : w = "async" → us.head? ≠ some "function")
    (h : run inLine ([], 0) (w :: us) = some ([], 0)) : lead (w :: us ++ ";" :: rest) = .line := by
  have hfunction : ¬ (w = "async" ∧ (us ++ ";" :: rest).head? = some "function") := by
    rintro ⟨rfl, hus⟩
    cases us with
    | nil => exact absurd (Option.some.inj hus) (by decide)
    | cons v us => exact hasync rfl hus
  have hlabel : ¬ (isLabel w = true ∧ (us ++ ";" :: rest).head? = some ":") := by
    rintro ⟨hl, hus⟩
    obtain ⟨hb, hq⟩ := isLabel_plain hl
    exact head_ne_colon hb hq h hus
  simp only [announcing, List.cons_append, List.nil_append, List.mem_cons, not_or] at hw
  obtain ⟨h1, h2, h3, h4, h5, h6, h7, h8, h9, hc⟩ := hw
  rw [List.cons_append, lead, if_neg h1, if_neg h2, if_neg h3, if_neg h4, if_neg h5, if_neg h6, if_neg h7, if_neg, if_neg h9,
    if_neg hc, if_neg]
  · simpa using hlabel
  · simpa [h8] using hfunction

theorem lead_labeled {w : String} {ts : List String} (hw : w ∉ announcing) (hl : isLabel w = true) :
    lead (w :: ":" :: ts) = .labeled w ts := by
  simp only [announcing, List.cons_append, List.nil_append, List.mem_cons, not_or] at hw
  obtain ⟨h1, h2, h3, h4, h5, h6, h7, h8, h9, hc⟩ := hw
  rw [lead, if_neg h1, if_neg h2, if_neg h3, if_neg h4, if_neg h5, if_neg h6, if_neg h7, if_neg, if_neg h9, if_neg hc, if_pos]
  · rfl
  · simp [hl]
  · simp [h8]

end Grammar

namespace Node
variable {n : Node Tree} {τ : Slot} {s : String}

theorem not_announcing (hn : n.leafText? = some s) (hs : n.IsSpelt (fun _ => False) τ) (hm : τ ≠ .memberName) (hk : τ ≠ .key) :
    s ∉ Grammar.announcing := by
  have key : ∀ w ∈ Grammar.announcing, isForeign w = true := by decide
  intro hmem
  have := not_foreign hn hs hm hk
  rw [key s hmem] at this
  cases this

theorem isLabel_name (hs : (Node.identifier s : Node Tree).IsSpelt (fun _ => False) τ) (hm : τ ≠ .memberName) (hk : τ ≠ .key) :
    Grammar.isLabel s = true := by
  have hr := not_reserved hs hm hk
  obtain ⟨v, hv, -⟩ := hs
  obtain ⟨c, cs, hw, hc⟩ := hv.first
  simp [Grammar.isLabel, hw, (name_plain hc).1, hr]

end Node

namespace Starts
variable {n : Node Tree} {τ : Slot} {ps : Pieces}

/-- An expression that begins neither as a block nor as a declaration begins as a line does. -/
theorem first_token (h : Starts n ps) (hs : n.IsSpelt (fun _ => False) τ) (hm : τ ≠ .memberName) (hk : τ ≠ .key)
    (hb : n.startsBlock = false) (hd : n.startsDeclaration = false) :
    ∃ w ws, tokens ps = w :: ws ∧ w ∉ Grammar.announcing ∧ (w = "async" → ws.head? ≠ some "function") := by
  cases h with
  | group => exact ⟨"(", _, rfl, by decide, fun he => absurd he (by decide)⟩
  | @leaf s ps hn hps => exact ⟨s, tokens ps, rfl, Node.not_announcing hn hs hm hk, fun _ => hps.2⟩
  | @marks ps hn =>
    cases n with
    | arrayExpression | arrayPattern => exact ⟨"[", _, rfl, by decide, fun he => absurd he (by decide)⟩
    | arrowFunctionExpression f =>
      obtain ⟨id, params, body, isAsync, generator⟩ := f
      cases isAsync with
      | true => exact ⟨"async", _, rfl, by decide, fun _ he => absurd (Option.some.inj he) (by decide : "(" ≠ "function")⟩
      | false => exact ⟨"(", _, rfl, by decide, fun he => absurd he (by decide)⟩
    | unaryExpression operator e =>
      have key : ∀ op ∈ Grammar.unaryOperators, op ∉ Grammar.announcing ∧ op ≠ "async" := by decide
      exact ⟨operator, _, rfl, (key _ hs).1, fun he => absurd he (key _ hs).2⟩
    | updateExpression operator isBefore e =>
      have key : ∀ op ∈ Grammar.updateOperators, op ∉ Grammar.announcing ∧ op ≠ "async" := by decide
      exact ⟨operator, _, rfl, (key _ hs).1, fun he => absurd he (key _ hs).2⟩
    | newExpression callee arguments => exact ⟨"new", _, rfl, by decide, fun he => absurd he (by decide)⟩
    | awaitExpression e => exact ⟨"await", _, rfl, by decide, fun he => absurd he (by decide)⟩
    | objectExpression | objectPattern => cases hb
    | functionExpression | classExpression => cases hd
    | _ => exact absurd rfl hn

end Starts

namespace Node

/-- The statements that end in a semicolon, but for the loop that does. -/
def isLine : Node Tree → Bool
  | .expressionStatement _ | .emptyStatement | .returnStatement _ | .throwStatement _ | .breakStatement _ | .continueStatement _
  | .variableDeclaration .. => true
  | _ => false

end Node

namespace Tree
variable {σ : Slot} {t : Tree} {c : PrintContext}

/-- What stands in front of the semicolon of a line. -/
def IsLine (ps : Pieces) : Prop :=
  ∃ us, tokens ps = us ++ [";"] ∧ run inLine ([], 0) us = some ([], 0) ∧ ∀ rest, Grammar.lead (us ++ ";" :: rest) = .line

theorem isLine_of_word {w : String} (ps : Pieces) (hw : w ∉ Grammar.announcing ∧ w ≠ "async") (hword : IsInline w)
    (h : Crosses inLine 0 ps 0) : IsLine (.mark w :: ps ++ [.mark ";"]) := by
  have hrun : Crosses inLine 0 (.mark w :: ps) 0 := (inLine_mark hword).cons h
  exact ⟨w :: tokens ps, by simp, hrun, fun rest => Grammar.lead_line hw.1 (fun he => absurd he hw.2) hrun⟩

/-- The statements of a line. -/
theorem Spelt.isLine (h : Spelt (fun _ => False) σ t) (hl : t.node.isLine = true) (c : PrintContext) : IsLine (pieces t c) := by
  obtain ⟨n⟩ := t
  have kids := h.wellFormed.places
  have operand {e : Tree} (he : (e, Slot.expression) ∈ n.places σ) : e.PrintsPaired ∧ e.PrintsInLine :=
    ⟨(kids _ he).2.paired,
      (h.places _ he).printsInLine (isPassed_of_allows (.inl rfl) (h.places _ he).allows) nofun nofun⟩
  have name {l : Tree} (hl : (l, Slot.name) ∈ n.places σ) : Crosses inLine 0 (asOperand l (pieces l) Level.primary c) 0 := by
    obtain ⟨w, hw, hname⟩ := (h.places _ hl).isName c
    rw [hname]
    exact .leaf hw.1.1 (inLine_word hw.1)
  cases n with
  | emptyStatement => exact ⟨[], rfl, rfl, fun _ => rfl⟩
  | expressionStatement e =>
    have hplace : (e, Slot.expression) ∈ Node.places σ (.expressionStatement e) := List.mem_cons_self
    have he := h.places _ hplace
    have hoperand : Crosses inLine 0 (asOperand e (pieces e) Level.sequence c) 0 := inLine_asOperand (operand hplace).1 (operand hplace).2
    rw [pieces_expressionStatement]
    split
    next =>
      have hgroup : Crosses inLine 0 (.mark "(" :: asOperand e (pieces e) Level.sequence c ++ [.mark ")"]) 0 :=
        .grouped rfl rfl (grouped_of_paired (paired_asOperand (operand hplace).1)) rfl
      exact ⟨_, by simp, hgroup, fun rest => Grammar.lead_line (by decide) (fun he => absurd he (by decide)) hgroup⟩
    next hneeds =>
      rw [needsStatementParens_eq, Bool.not_eq_true, Bool.or_eq_false_iff] at hneeds
      obtain ⟨τ, hm, hk, hleft⟩ := he.leftmost nofun nofun
      have hstarts := (he.starts (isPassed_of_allows (.inl rfl) he.allows) c).asOperand (t := e) (m := Level.sequence)
      obtain ⟨w, ws, hw, hannounce, hasync⟩ := hstarts.first_token hleft.spelt hm hk hneeds.1 hneeds.2
      rw [Crosses, hw] at hoperand
      exact ⟨w :: ws, by simp [hw], hoperand, fun rest => Grammar.lead_line hannounce hasync hoperand⟩
  | returnStatement argument =>
    cases argument with
    | none => exact isLine_of_word [] (by decide) ⟨rfl, by decide⟩ .nil
    | some e =>
      obtain ⟨hp, he⟩ := operand (e := e) (by simp [Node.places])
      exact isLine_of_word (.blank :: _) (by decide) ⟨rfl, by decide⟩ (inLine_asOperand hp he)
  | throwStatement e =>
    obtain ⟨hp, he⟩ := operand (e := e) (by simp [Node.places])
    exact isLine_of_word (.blank :: _) (by decide) ⟨rfl, by decide⟩ (inLine_asOperand hp he)
  | breakStatement label | continueStatement label =>
    cases label with
    | none => exact isLine_of_word [] (by decide) ⟨rfl, by decide⟩ .nil
    | some l =>
      exact isLine_of_word (.blank :: _) (by decide) ⟨rfl, by decide⟩ (name (l := l) (by simp [Node.places]))
  | variableDeclaration kind declarations =>
    have hdeclarators : Crosses inLine 0 (declarators declarations c) 0 := by
      have hplace (d : Tree) (hd : d ∈ declarations) :
          (d, σ.ofDeclarator kind) ∈ Node.places σ (.variableDeclaration kind declarations) := by
        simp [Node.places, hd]
      refine inLine_declarators fun d hd => ⟨σ.ofDeclarator kind, ?_, h.places _ (hplace d hd)⟩
      unfold Slot.ofDeclarator
      split
      · exact .inr rfl
      · exact .inl rfl
    have hword : (kind.word ∉ Grammar.announcing ∧ kind.word ≠ "async") ∧ IsInline kind.word := by
      unfold IsInline
      cases kind <;> decide
    exact isLine_of_word (.blank :: _) hword.1 hword.2 hdeclarators
  | _ => cases hl

end Tree
end Graft
