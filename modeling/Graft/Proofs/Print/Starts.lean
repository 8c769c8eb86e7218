import Graft.Proofs.Print.Leaves
import Graft.Proofs.Print.Spelling
import Graft.Proofs.Source.Scanning
/-!
# What a printed expression starts with

`Tree.leftmost` goes down to the node whose text comes first, and the printer asks it whether a statement or the body of an arrow
needs parentheses. `Starts` says that the two agree: the printed form of an expression begins with a parenthesis or with what its
leftmost node begins with (`Tree.Spelt.starts`). So an expression statement never begins as a block or a declaration does, and a
body never as a block (`Tree.printed_start`).
-/

namespace Graft

open Lexical
open Unicode (isAsciiDigit)

/-! ## Fronts of texts -/

namespace Lexical
variable {cs r w : List Char} {c : Char} {s word : String} {ps qs rest : Pieces}

/-- A token stands at the front: no blank, and no comment. -/
def Fronted (cs : List Char) : Prop :=
  ∃ c r, cs = c :: r ∧ Source.isBlank c = false ∧ (c = '/' → ∀ d ∈ r.head?, d ≠ '/' ∧ d ≠ '*')

/-- The text begins with this word, and no longer name begins there. -/
def BeginsWord (word : String) (cs : List Char) : Prop :=
  ∃ r, cs = word.toList ++ r ∧ ∀ c ∈ r.head?, Source.isNamePart c = false ∧ c ≠ '\\'

/-- The characters that may come right after a name in an expression. -/
def isEdge (c : Char) : Bool := c ∈ " ()[].?+-,;".toList

theorem of_isEdge (h : isEdge c = true) : Source.isNamePart c = false ∧ c ≠ '/' ∧ c ≠ '*' := by
  have key : " ()[].?+-,;".toList.all (fun c => !Source.isNamePart c && c ≠ '/' && c ≠ '*') = true := by decide
  have hc := List.all_eq_true.1 key c (of_decide_eq_true h)
  simpa [and_assoc] using hc

/-- What may come after an operand: an edge, and no `function`. -/
def Edged (ps : Pieces) : Prop := (∀ c ∈ (chars ps).head?, isEdge c = true) ∧ (tokens ps).head? ≠ some "function"

theorem edged_nil : Edged [] := ⟨nofun, nofun⟩

theorem first_of_any {p : Char → Bool} (h : w.head?.any p = true) : ∃ c cs, w = c :: cs ∧ p c = true := by
  cases w with
  | nil => cases h
  | cons c cs => exact ⟨c, cs, rfl, h⟩

theorem edged_mark (h : s.toList.head?.any isEdge = true) : Edged (.mark s :: ps) := by
  obtain ⟨c, cs, hs, he⟩ := first_of_any h
  refine ⟨?_, ?_⟩
  · rw [chars_mark, hs]
    rintro d ⟨⟩
    exact he
  · rw [tokens_mark, List.head?_cons, ne_eq, Option.some_inj]
    rintro rfl
    cases hs
    exact absurd he (by decide)

theorem edged_operator (h : s ≠ "function") : Edged (.blank :: .mark s :: ps) :=
  ⟨by rintro c ⟨⟩; rfl, by simpa using h⟩

theorem Edged.append (hp : Edged ps) (hq : Edged qs) : Edged (ps ++ qs) := by
  refine ⟨?_, ?_⟩
  · rw [chars_append]
    cases h : chars ps with
    | nil => exact hq.1
    | cons c cs =>
      rintro d ⟨⟩
      exact hp.1 c (by rw [h]; rfl)
  · rw [tokens_append]
    cases h : tokens ps with
    | nil => exact hq.2
    | cons w ws =>
      have := hp.2
      rw [h] at this
      exact this

theorem edged_optionally (b : Bool) (h : Edged ps) : Edged (Tree.optionally b ps) := by
  cases b with
  | true => exact h
  | false => exact edged_nil

theorem not_beginsWord_of_head {d : Char} {ds : List Char} (hword : word.toList = d :: ds) (hne : c ≠ d) :
    ¬ BeginsWord word (c :: cs) := by
  rintro ⟨r, he, -⟩
  rw [hword] at he
  exact hne (List.cons.inj he).1

/-- A leaf that is not the word, and goes on as a name where it begins with the word. -/
structure Differs (word : String) (w : List Char) : Prop where
  ne : w ≠ word.toList
  longer : ∀ c cs, w = word.toList ++ c :: cs → Source.isNamePart c = true ∨ c = '\\'

theorem differs_of_head (hword : word.toList ≠ []) (h : w.head? ≠ word.toList.head?) : Differs word w :=
  ⟨fun he => h (by rw [he]), fun c cs he => absurd (by rw [he, List.head?_append_of_ne_nil _ hword]) h⟩

/-- Such a leaf is read as itself before an edge. -/
theorem Differs.not_beginsWord (h : Differs word w) (hword : word.toList.all Source.isNamePart = true)
    (hr : ∀ c ∈ r.head?, isEdge c = true) : ¬ BeginsWord word (w ++ r) := by
  rintro ⟨x, he, hx⟩
  rcases List.append_eq_append_iff.1 he with ⟨y, hy, hr'⟩ | ⟨y, hy, hx'⟩
  · cases y with
    | nil => exact h.ne (by simpa using hy.symm)
    | cons c y =>
      have hc : Source.isNamePart c = true := List.all_eq_true.1 hword c (by simp [hy])
      rw [(of_isEdge (hr c (by simp [hr']))).1] at hc
      cases hc
  · cases y with
    | nil => exact h.ne (by simpa using hy)
    | cons c y =>
      obtain ⟨h1, h2⟩ := hx c (by simp [hx'])
      rcases h.longer c y hy with h | h
      · rw [h1] at h
        cases h
      · exact h2 h

/-- A name goes on with characters of names and escapes. -/
theorem Spells.next {A : Alphabet} {v p x : List Char} (h : Spells A w v) (hw : w = p ++ c :: x) (hp : '\\' ∉ p) :
    A.part c = true ∨ c = '\\' := by
  induction p generalizing w v with
  | nil =>
    cases h with
    | done => cases hw
    | char hc _ =>
      cases hw
      exact .inl hc
    | escape _ _ _ =>
      cases hw
      exact .inr rfl
  | cons d p ih =>
    obtain ⟨hd, hp⟩ := not_or.1 (List.mem_cons.not.1 hp)
    cases h with
    | done => cases hw
    | char _ h =>
      obtain ⟨-, hw⟩ := List.cons.inj hw
      exact ih h hw hp
    | escape _ _ _ => exact absurd (List.cons.inj hw).1 hd

end Lexical

/-! ## The leftmost node -/

namespace Node

/-- What a node begins with that is no leaf and does not begin with an operand. -/
def opening : Node Tree → Pieces
  | .arrayExpression _ | .arrayPattern _ => [.mark "["]
  | .objectExpression _ | .objectPattern _ => [.mark "\x7b"]
  | .functionExpression f => Tree.optionally f.isAsync [.mark "async", .blank] ++ [.mark "function"]
  | .arrowFunctionExpression f => Tree.optionally f.isAsync [.mark "async", .blank] ++ [.mark "("]
  | .classExpression _ => [.mark "class"]
  | .unaryExpression operator _ => [.mark operator]
  | .updateExpression operator _ _ => [.mark operator]
  | .newExpression .. => [.mark "new"]
  | .awaitExpression _ => [.mark "await"]
  | _ => []

/-- Nodes that stand where `leftmost` goes by. -/
def isPassed (n : Node Tree) : Bool :=
  n.isExpression || n.isDestructuring || match n with
    | .privateIdentifier _ => true
    | _ => false

/-- Nodes that begin with a brace. -/
def startsBlock : Node Tree → Bool
  | .objectExpression _ | .objectPattern _ => true
  | .verbatim text => text.toList.head? = some '\x7b'
  | _ => false

/-- Nodes that begin with the word of a declaration. -/
def startsDeclaration : Node Tree → Bool
  | .functionExpression _ | .classExpression _ => true
  | .verbatim text => Tree.startsWithWord "function" text || Tree.startsWithWord "class" text
  | _ => false

end Node

/-- Pieces begin with a parenthesis, or as the node does. -/
inductive Starts (n : Node Tree) : Pieces → Prop
  | group {ps : Pieces} : Starts n (.mark "(" :: ps)
  | leaf {s : String} {ps : Pieces} (hn : n.leafText? = some s) (hps : Edged ps) : Starts n (.leaf s :: ps)
  | marks {ps : Pieces} (hn : n.opening ≠ []) : Starts n (n.opening ++ ps)

namespace Starts
variable {n : Node Tree} {t : Tree} {printed : Tree.Printed} {c : PrintContext} {m : Nat} {ps qs : Pieces}

theorem append (h : Starts n ps) (hq : Edged qs) : Starts n (ps ++ qs) := by
  cases h with
  | group => exact .group
  | leaf hn hps => exact .leaf hn (hps.append hq)
  | marks hn =>
    rw [List.append_assoc]
    exact .marks hn

theorem mark {w : String} (hn : n.opening = [.mark w]) : Starts n (.mark w :: ps) := by
  have hmarks : Starts n (n.opening ++ ps) := .marks (by rw [hn]; nofun)
  rwa [hn] at hmarks

theorem parenthesized : Starts n (Tree.parenthesized printed c) := .group

section Places
variable (h : Starts n (printed c))
include h

theorem asOperand : Starts n (Tree.asOperand t printed m c) := by
  unfold Tree.asOperand
  split
  next => exact .parenthesized
  next => exact h

theorem asForced {force : Bool} : Starts n (Tree.asForced force t printed m c) := by
  unfold Tree.asForced
  split
  next => exact .parenthesized
  next => exact h.asOperand

theorem asChainObject : Starts n (Tree.asChainObject t printed c) := by
  unfold Tree.asChainObject
  split
  next => exact .parenthesized
  next => exact h.asOperand

theorem asMemberObject : Starts n (Tree.asMemberObject t printed c) := by
  unfold Tree.asMemberObject
  split
  next => exact .parenthesized
  next => exact h.asChainObject

theorem binaryPieces {operator : String} (ho : operator ≠ "function") {right : Tree} {r : Tree.Printed} :
    Starts n (Tree.binaryPieces operator t printed right r c) := by
  unfold Tree.binaryPieces
  dsimp only
  split
  next =>
    rw [List.append_assoc]
    exact h.asForced.append (edged_operator (by decide))
  next =>
    rw [List.append_assoc]
    exact h.asForced.append (edged_operator ho)

end Places

end Starts

namespace Tree
variable {kept : String → Prop} {σ : Slot} {t e : Tree} {c : PrintContext}

theorem starts_listed {n : Node Tree} {e : Tree} {es : List Tree} (h : Starts n (pieces e c)) : Starts n (listed (e :: es) c) := by
  cases es with
  | nil => exact h.asOperand
  | cons f fs =>
    rw [listed, List.append_assoc]
    · exact h.asOperand.append (edged_mark rfl)
    · exact List.cons_ne_nil f fs

theorem starts_function {f : Func Tree} : Starts (.functionExpression f) (function f c) := by
  obtain ⟨id, params, body, isAsync, generator⟩ := f
  cases isAsync with
  | true => cases id <;> exact .marks (n := .functionExpression ⟨_, params, body, true, generator⟩) nofun
  | false => cases id <;> exact .mark rfl

theorem starts_arrow {f : Func Tree} : Starts (.arrowFunctionExpression f) (arrow f c) := by
  obtain ⟨id, params, body, isAsync, generator⟩ := f
  cases isAsync with
  | true => exact .marks (n := .arrowFunctionExpression ⟨id, params, body, true, generator⟩) nofun
  | false => exact .group

theorem isPassed_of_allows {τ : Slot} {n : Node Tree} (hτ : τ = .expression ∨ τ = .subject ∨ τ = .target)
    (h : τ.allows n = true) : n.isPassed = true := by
  have hpassed : n.isExpression = true ∨ n.isDestructuring = true → n.isPassed = true := by
    rintro (h | h) <;> simp [Node.isPassed, h]
  rcases hτ with rfl | rfl | rfl
  · exact hpassed (.inl h)
  · cases n <;> first | rfl | exact hpassed (.inl h)
  · exact hpassed (by simpa [Slot.allows] using h)

/-- The printed form of an expression begins as its leftmost node does, or with a parenthesis. -/
theorem Spelt.starts (h : Spelt kept σ t) (ht : t.node.isPassed = true) (c : PrintContext) :
    Starts (leftmost t).node (pieces t c) := by
  -- On the tree. A node that begins with an operand begins as the operand, and the operand is where `leftmost` goes.
  induction h generalizing c with
  | @mk σ n ha hs hcomplete hlinked hbelow ih =>
    have operand {u : Tree} {τ : Slot} (hu : (u, τ) ∈ n.places σ) (hτ : τ = .expression ∨ τ = .subject ∨ τ = .target) :
        Starts (leftmost u).node (pieces u c) :=
      ih _ hu (isPassed_of_allows hτ (hbelow _ hu).allows) c
    cases n with
    | identifier name | privateIdentifier name | literal value raw | thisExpression | super | verbatim text =>
      exact .leaf rfl edged_nil
    | arrayExpression elements | arrayPattern elements => exact .mark rfl
    | objectExpression properties | objectPattern properties => cases properties <;> exact .mark rfl
    | functionExpression f => exact starts_function
    | arrowFunctionExpression f => exact starts_arrow
    | classExpression k =>
      obtain ⟨id, superClass, body⟩ := k
      cases id <;> cases superClass <;> exact .mark rfl
    | unaryExpression operator e => exact .mark rfl
    | updateExpression operator isBefore e =>
      cases isBefore with
      | true => exact .mark rfl
      | false =>
        have he := operand (u := e) List.mem_cons_self (.inl rfl)
        have hop : ∀ op ∈ Grammar.updateOperators, op.toList.head?.any isEdge = true := by decide
        exact he.asOperand.append (edged_mark (hop operator hs))
    | binaryExpression operator l r =>
      have hop : ∀ op ∈ Grammar.binaryOperators, op ≠ "function" := by decide
      refine Starts.binaryPieces (operand (u := l) List.mem_cons_self ?_) (hop operator hs)
      split
      · exact .inr (.inl rfl)
      · exact .inl rfl
    | logicalExpression operator l r =>
      have hop : ∀ op ∈ Grammar.logicalOperators, op ≠ "function" := by decide
      exact Starts.binaryPieces (operand (u := l) List.mem_cons_self (.inl rfl)) (hop operator hs)
    | assignmentExpression operator l r =>
      have hop : ∀ op ∈ Grammar.assignmentOperators, op ≠ "function" := by decide
      have hl := operand (u := l) List.mem_cons_self (.inr (.inr rfl))
      show Starts _ (_ ++ _ ++ _)
      rw [List.append_assoc]
      exact hl.asOperand.append (edged_operator (hop operator hs))
    | conditionalExpression test yes no =>
      have htest := operand (u := test) List.mem_cons_self (.inl rfl)
      show Starts _ (_ ++ _ ++ _ ++ _ ++ _)
      rw [List.append_assoc, List.append_assoc, List.append_assoc]
      exact htest.asOperand.append (edged_operator (by decide))
    | callExpression callee arguments optional =>
      have hcallee := operand (u := callee) List.mem_cons_self (.inl rfl)
      show Starts _ (_ ++ _ ++ _ ++ _ ++ _)
      rw [List.append_assoc, List.append_assoc, List.append_assoc]
      exact hcallee.asChainObject.append ((edged_optionally _ (edged_mark rfl)).append (edged_mark rfl))
    | newExpression callee arguments => exact .mark rfl
    | memberExpression object member computed optional =>
      have hobject := operand (u := object) List.mem_cons_self (.inl rfl)
      show Starts _ (_ ++ _)
      refine hobject.asMemberObject.append ?_
      cases computed with
      | true => exact ((edged_optionally _ (edged_mark rfl)).append (edged_mark rfl)).append (edged_mark rfl)
      | false => cases optional <;> exact edged_mark rfl
    | chainExpression e => exact operand (u := e) List.mem_cons_self (.inl rfl)
    | sequenceExpression es =>
      cases es with
      | nil => cases hcomplete
      | cons e es => exact starts_listed (operand (u := e) List.mem_cons_self (.inl rfl))
    | awaitExpression e => exact .mark rfl
    | _ => cases ht

/-- The leftmost node stands in the tree, and not as the name of a member. -/
theorem Spelt.leftmost (h : Spelt kept σ t) (hm : σ ≠ .memberName) (hk : σ ≠ .key) :
    ∃ τ, τ ≠ .memberName ∧ τ ≠ .key ∧ Spelt kept τ (leftmost t) := by
  induction h with
  | @mk σ n ha hs hcomplete hlinked hbelow ih =>
    have operand {u : Tree} {τ : Slot} (hu : (u, τ) ∈ n.places σ) (hτ : τ = .expression ∨ τ = .subject ∨ τ = .target) :
        ∃ τ, τ ≠ .memberName ∧ τ ≠ .key ∧ Spelt kept τ (Tree.leftmost u) :=
      ih _ hu (by rcases hτ with rfl | rfl | rfl <;> nofun) (by rcases hτ with rfl | rfl | rfl <;> nofun)
    have itself : ∃ τ, τ ≠ .memberName ∧ τ ≠ .key ∧ Spelt kept τ (.mk n) :=
      ⟨σ, hm, hk, .mk ha hs hcomplete hlinked hbelow⟩
    cases n with
    | callExpression callee _ _ => exact operand (u := callee) List.mem_cons_self (.inl rfl)
    | memberExpression object _ _ _ => exact operand (u := object) List.mem_cons_self (.inl rfl)
    | chainExpression e => exact operand (u := e) List.mem_cons_self (.inl rfl)
    | binaryExpression operator l _ =>
      refine operand (u := l) List.mem_cons_self ?_
      split
      · exact .inr (.inl rfl)
      · exact .inl rfl
    | logicalExpression _ l _ => exact operand (u := l) List.mem_cons_self (.inl rfl)
    | assignmentExpression _ l _ => exact operand (u := l) List.mem_cons_self (.inr (.inr rfl))
    | conditionalExpression test _ _ => exact operand (u := test) List.mem_cons_self (.inl rfl)
    | updateExpression operator isBefore e =>
      cases isBefore with
      | true => exact itself
      | false => exact operand (u := e) List.mem_cons_self (.inl rfl)
    | sequenceExpression es =>
      cases es with
      | nil => exact itself
      | cons e es => exact operand (u := e) List.mem_cons_self (.inl rfl)
    | _ => exact itself

/-! ## The first characters -/

/-- The words that an expression statement must not begin with. -/
def declaringWords : List String := ["function", "class"]

/-- No character that begins a comment, a brace or one of the words. -/
def isPlainStart (c : Char) : Bool := !Source.isBlank c && c ∉ "/\x7bfc".toList

end Tree

namespace Lexical
variable {cs r w : List Char} {c : Char}

theorem fronted_of_plain (h : Tree.isPlainStart c = true) : Fronted (c :: cs) := by
  simp only [Tree.isPlainStart, Bool.and_eq_true, Bool.not_eq_true', decide_eq_true_eq] at h
  refine ⟨c, cs, rfl, h.1, ?_⟩
  rintro rfl
  exact absurd (by decide) h.2

theorem no_brace_of_plain (h : Tree.isPlainStart c = true) : (c :: cs).head? ≠ some '\x7b' := by
  rintro ⟨⟩
  revert h
  decide

theorem no_word_of_plain (h : Tree.isPlainStart c = true) : ∀ word ∈ Tree.declaringWords, ¬ BeginsWord word (c :: cs) := by
  simp only [Tree.isPlainStart, Bool.and_eq_true, decide_eq_true_eq] at h
  have hne : ∀ d ∈ "/\x7bfc".toList, c ≠ d := fun d hd he => h.2 (he ▸ hd)
  simp only [Tree.declaringWords, List.forall_mem_cons]
  exact ⟨not_beginsWord_of_head rfl (hne 'f' (by decide)), not_beginsWord_of_head rfl (hne 'c' (by decide)), nofun⟩

theorem Fronted.append (h : Fronted w) (hr : ∀ c ∈ r.head?, isEdge c = true) : Fronted (w ++ r) := by
  obtain ⟨c, cs, rfl, hc, hs⟩ := h
  refine ⟨c, cs ++ r, rfl, hc, fun he => ?_⟩
  cases cs with
  | nil => exact fun d hd => (of_isEdge (hr d hd)).2
  | cons d cs => exact hs he

theorem fronted_name {v : List Char} (h : IsName .reader w v) : Fronted w ∧ w.head? ≠ some '\x7b' := by
  obtain ⟨c, cs, rfl, hc⟩ := h.first
  have hm := (name_plain hc).1
  refine ⟨⟨c, cs, rfl, ?_, ?_⟩, ?_⟩
  · simp only [startsName, Bool.or_eq_true, decide_eq_true_eq] at hc
    rcases hc with hc | rfl
    · exact Source.name_not_blank (Alphabet.reader.part_of_start c hc)
    · decide
  · rintro rfl
    cases hm
  · rintro ⟨⟩
    cases hm

theorem fronted_literal {value : LiteralValue} {raw : String} (h : Node.IsLiteral value raw) :
    Fronted raw.toList ∧ raw.toList.head? ≠ some '\x7b' := by
  rcases literal_first h with h | ⟨c, cs, hw, hc⟩
  · have key : ∀ raw ∈ ["true", "false", "null"],
        raw.toList.head?.any (fun c => !Source.isBlank c && c ≠ '/' && c ≠ '\x7b') = true := by
      decide
    obtain ⟨c, cs, hw, hc⟩ := first_of_any (key raw h)
    simp only [Bool.and_eq_true, Bool.not_eq_true', decide_eq_true_eq] at hc
    rw [hw]
    refine ⟨⟨c, cs, rfl, hc.1.1, fun he => absurd he hc.1.2⟩, ?_⟩
    rintro ⟨⟩
    exact hc.2 rfl
  · rw [hw]
    refine ⟨⟨c, cs, rfl, ?_, fun he => ?_⟩, ?_⟩
    · rcases hc with hc | hc | ⟨rfl, -⟩ | ⟨rfl, -⟩
      · simp only [isQuote, Bool.or_eq_true, decide_eq_true_eq] at hc
        rcases hc with rfl | rfl <;> decide
      · simpa using forall_digit (q := fun c => !Source.isBlank c) (by decide) hc
      · decide
      · decide
    · subst he
      rcases hc with hc | hc | ⟨hc, -⟩ | ⟨-, hc⟩
      · cases hc
      · cases hc
      · cases hc
      · exact hc
    · exact fun hb => hc.ne (d := '\x7b') (by decide) (Option.some.inj hb)

end Lexical

namespace Node
variable {kept : String → Prop} {τ : Slot} {n : Node Tree} {s : String} {ps : Pieces}

/-- A node that begins with a mark begins plainly, unless it begins as a statement does. -/
theorem opening_first (hn : n.opening ≠ []) (hs : n.IsSpelt kept τ) :
    ∃ c cs, chars n.opening = c :: cs ∧ (Tree.isPlainStart c = true ∨ n.startsBlock = true ∧ c = '\x7b' ∨
      n.startsDeclaration = true ∧ (c = 'f' ∨ c = 'c')) := by
  cases n with
  | arrayExpression elements | arrayPattern elements => exact ⟨'[', [], rfl, .inl (by decide)⟩
  | objectExpression properties | objectPattern properties => exact ⟨'\x7b', [], rfl, .inr (.inl ⟨rfl, rfl⟩)⟩
  | functionExpression f =>
    obtain ⟨id, params, body, isAsync, generator⟩ := f
    cases isAsync with
    | true => exact ⟨'a', _, rfl, .inl (by decide)⟩
    | false => exact ⟨'f', _, rfl, .inr (.inr ⟨rfl, .inl rfl⟩)⟩
  | arrowFunctionExpression f =>
    obtain ⟨id, params, body, isAsync, generator⟩ := f
    cases isAsync with
    | true => exact ⟨'a', _, rfl, .inl (by decide)⟩
    | false => exact ⟨'(', _, rfl, .inl (by decide)⟩
  | classExpression k => exact ⟨'c', _, rfl, .inr (.inr ⟨rfl, .inr rfl⟩)⟩
  | unaryExpression operator e =>
    have key : ∀ w ∈ Grammar.unaryOperators, w.toList.head?.any Tree.isPlainStart = true := by decide
    obtain ⟨c, cs, hc, hp⟩ := first_of_any (key operator hs)
    exact ⟨c, cs ++ [], by rw [opening, chars_mark, hc]; rfl, .inl hp⟩
  | updateExpression operator isBefore e =>
    have key : ∀ w ∈ Grammar.updateOperators, w.toList.head?.any Tree.isPlainStart = true := by decide
    obtain ⟨c, cs, hc, hp⟩ := first_of_any (key operator hs)
    exact ⟨c, cs ++ [], by rw [opening, chars_mark, hc]; rfl, .inl hp⟩
  | newExpression callee arguments => exact ⟨'n', _, rfl, .inl (by decide)⟩
  | awaitExpression e => exact ⟨'a', _, rfl, .inl (by decide)⟩
  | _ => exact absurd rfl hn

/-- The text of a leaf is a token at the front. -/
theorem fronted_leaf (hn : n.leafText? = some s) (hs : n.IsSpelt (fun text => Fronted text.toList) τ) :
    Fronted s.toList ∧ (n.startsBlock = false → s.toList.head? ≠ some '\x7b') := by
  cases n with
  | identifier name =>
    cases hn
    obtain ⟨v, hv, -⟩ := hs
    exact ⟨(fronted_name hv).1, fun _ => (fronted_name hv).2⟩
  | privateIdentifier name =>
    cases hn
    have hw : ("#" ++ name).toList = '#' :: name.toList := by simp
    rw [hw]
    exact ⟨fronted_of_plain (by decide), fun _ => nofun⟩
  | literal value raw =>
    cases hn
    exact ⟨(fronted_literal hs).1, fun _ => (fronted_literal hs).2⟩
  | thisExpression | super =>
    cases hn
    exact ⟨fronted_of_plain (by decide), fun _ => nofun⟩
  | verbatim text =>
    cases hn
    exact ⟨hs, fun hb => of_decide_eq_false hb⟩
  | _ => cases hn

end Node

namespace Node
variable {τ : Slot} {n : Node Tree} {s word : String}

theorem differs_of_first {w : List Char} {c : Char} {cs : List Char} (hw : w = c :: cs) (hc : c ≠ 'f' ∧ c ≠ 'c')
    (hword : word ∈ Tree.declaringWords) : Differs word w := by
  have key : ∀ word ∈ Tree.declaringWords, word.toList ≠ [] ∧ (word.toList.head? = some 'f' ∨ word.toList.head? = some 'c') := by
    decide
  obtain ⟨hne, hfirst⟩ := key word hword
  refine differs_of_head hne fun he => ?_
  rw [hw, List.head?_cons] at he
  rw [← he, Option.some_inj, Option.some_inj] at hfirst
  exact hfirst.elim hc.1 hc.2

/-- A name that is no keyword. -/
theorem differs_name {v : List Char} (hv : IsName .reader s.toList v) (hr : String.ofList v ∉ Grammar.reservedWords)
    (hword : word ∈ Tree.declaringWords) : Differs word s.toList := by
  have key : ∀ word ∈ Tree.declaringWords, '\\' ∉ word.toList ∧ String.ofList word.toList ∈ Grammar.reservedWords := by decide
  obtain ⟨hplain, hreserved⟩ := key word hword
  refine ⟨fun he => hr ?_, fun c cs he => hv.1.next he hplain⟩
  rw [he] at hv
  rw [hv.1.plain hplain]
  exact hreserved

/-- A text that the printer does not take for a declaration. -/
theorem differs_verbatim (hs : Tree.startsWithWord word s = false) : Differs word s.toList := by
  refine ⟨fun he => ?_, fun c cs he => ?_⟩
  · rw [Tree.startsWithWord, he, List.drop_length, List.isPrefixOf_iff_prefix.2 (List.prefix_refl _)] at hs
    cases hs
  · rw [Tree.startsWithWord, he, List.drop_left, List.isPrefixOf_iff_prefix.2 (List.prefix_append _ _)] at hs
    simp only [Bool.true_and, Bool.not_eq_false', Bool.or_eq_true, decide_eq_true_eq] at hs
    rcases hs with (h | rfl) | rfl
    · exact .inl (Source.isNamePart_of_alphanumeric h)
    · exact .inl (by decide)
    · exact .inl (by decide)

theorem differs_leaf (hn : n.leafText? = some s) (hs : n.IsSpelt (fun text => Fronted text.toList) τ) (hm : τ ≠ .memberName)
    (hk : τ ≠ .key) (hd : n.startsDeclaration = false) (hword : word ∈ Tree.declaringWords) : Differs word s.toList := by
  cases n with
  | identifier name =>
    cases hn
    obtain ⟨v, hv, hr⟩ := hs
    exact differs_name hv (fun h => (hr h).elim hm hk) hword
  | privateIdentifier name =>
    cases hn
    exact differs_of_first (c := '#') (by simp; rfl) (by decide) hword
  | literal value raw =>
    cases hn
    rcases literal_first hs with h | ⟨c, cs, hw, hc⟩
    · have key : ∀ raw ∈ ["true", "false", "null"], ∀ word ∈ Tree.declaringWords,
          raw ≠ word ∧ word.toList.isPrefixOf raw.toList = false := by decide
      obtain ⟨hne, hprefix⟩ := key s h word hword
      refine ⟨fun he => hne (String.toList_injective he), fun c cs he => ?_⟩
      rw [he, List.isPrefixOf_iff_prefix.2 (List.prefix_append _ _)] at hprefix
      cases hprefix
    · exact differs_of_first hw ⟨hc.ne, hc.ne⟩ hword
  | thisExpression | super =>
    cases hn
    exact differs_of_first rfl (by decide) hword
  | verbatim text =>
    cases hn
    rw [startsDeclaration, Bool.or_eq_false_iff] at hd
    simp only [Tree.declaringWords, List.mem_cons, List.not_mem_nil, or_false] at hword
    rcases hword with rfl | rfl
    · exact differs_verbatim hd.1
    · exact differs_verbatim hd.2
  | _ => cases hn

end Node

namespace Starts
variable {n : Node Tree} {τ : Slot} {ps qs : Pieces} (h : Starts n ps) (hs : n.IsSpelt (fun text => Fronted text.toList) τ)
include h hs

theorem fronted : Fronted (chars ps) := by
  cases h with
  | group => exact fronted_of_plain (by decide)
  | leaf hn hps => exact (Node.fronted_leaf hn hs).1.append hps.1
  | marks hn =>
    obtain ⟨c, cs, hc, hfirst⟩ := Node.opening_first hn hs
    rw [chars_append, hc]
    rcases hfirst with hfirst | ⟨-, rfl⟩ | ⟨-, rfl | rfl⟩
    · exact fronted_of_plain hfirst
    · exact ⟨_, _, rfl, by decide, nofun⟩
    · exact ⟨_, _, rfl, by decide, nofun⟩
    · exact ⟨_, _, rfl, by decide, nofun⟩

theorem no_brace (hb : n.startsBlock = false) : (chars ps).head? ≠ some '\x7b' := by
  cases h with
  | group => exact nofun
  | leaf hn hps =>
    obtain ⟨⟨c, cs, hc, -⟩, hbrace⟩ := Node.fronted_leaf hn hs
    have := hbrace hb
    rw [hc] at this
    rwa [chars_leaf, hc]
  | marks hn =>
    obtain ⟨c, cs, hc, hfirst⟩ := Node.opening_first hn hs
    rw [chars_append, hc]
    rcases hfirst with hfirst | ⟨hblock, -⟩ | ⟨-, rfl | rfl⟩
    · exact no_brace_of_plain hfirst
    · rw [hb] at hblock
      cases hblock
    · exact nofun
    · exact nofun

theorem no_word (hm : τ ≠ .memberName) (hk : τ ≠ .key) (hd : n.startsDeclaration = false) :
    ∀ word ∈ Tree.declaringWords, ¬ BeginsWord word (chars ps) := by
  have hnames : ∀ word ∈ Tree.declaringWords, word.toList.all Source.isNamePart = true := by decide
  cases h with
  | group => exact no_word_of_plain (by decide)
  | leaf hn hps => exact fun word hword => (Node.differs_leaf hn hs hm hk hd hword).not_beginsWord (hnames word hword) hps.1
  | marks hn =>
    obtain ⟨c, cs, hc, hfirst⟩ := Node.opening_first hn hs
    rw [chars_append, hc]
    rcases hfirst with hfirst | ⟨-, rfl⟩ | ⟨hdeclaration, -⟩
    · exact no_word_of_plain hfirst
    · simp only [Tree.declaringWords, List.forall_mem_cons]
      exact ⟨not_beginsWord_of_head rfl (by decide), not_beginsWord_of_head rfl (by decide), nofun⟩
    · rw [hd] at hdeclaration
      cases hdeclaration

end Starts

/-! ## Statements and bodies -/

namespace Tree
variable {σ : Slot} {e : Tree} {c : PrintContext}

theorem needsStatementParens_eq : needsStatementParens e = ((leftmost e).node.startsBlock || (leftmost e).node.startsDeclaration) := by
  unfold needsStatementParens
  cases (leftmost e).node <;> simp [Node.startsBlock, Node.startsDeclaration, Bool.or_assoc]

/-- Without an opaque text in front, a brace is that of an object. -/
theorem startsWithBrace_eq (hv : (leftmost e).node.isVerbatim = false) : startsWithBrace e = (leftmost e).node.startsBlock := by
  unfold startsWithBrace
  cases hn : (leftmost e).node <;> first | rfl | (rw [hn] at hv; cases hv)

/-- What an arrow has in front of its body. -/
def arrowHead (f : Func Tree) (c : PrintContext) : Pieces :=
  optionally f.isAsync [.mark "async", .blank] ++ .mark "(" :: listed f.params c ++ [.mark ")", .blank, .mark "=>", .blank]

/-- The body of an arrow as it is printed, an expression. -/
def arrowBody (f : Func Tree) (c : PrintContext) : Pieces :=
  if startsWithBrace f.body then .mark "(" :: asOperand f.body (pieces f.body) Level.assign c ++ [.mark ")"]
  else asOperand f.body (pieces f.body) Level.assign c

theorem pieces_arrow {f : Func Tree} (hb : f.body.node.isBlock = false) :
    pieces (.mk (.arrowFunctionExpression f)) c = arrowHead f c ++ arrowBody f c := by
  obtain ⟨id, params, body, isAsync, generator⟩ := f
  show _ ++ (if body.node.isBlock then _ else _) = _
  rw [if_neg (Bool.eq_false_iff.1 hb)]
  rfl

theorem pieces_arrow_block {f : Func Tree} (hb : f.body.node.isBlock = true) :
    pieces (.mk (.arrowFunctionExpression f)) c = arrowHead f c ++ asStatement f.body (pieces f.body) c := by
  obtain ⟨id, params, body, isAsync, generator⟩ := f
  show _ ++ (if body.node.isBlock then _ else _) = _
  rw [if_pos hb]
  rfl

theorem pieces_expressionStatement : pieces (.mk (.expressionStatement e)) c =
    (if needsStatementParens e then Piece.mark "(" :: asOperand e (pieces e) Level.sequence c ++ [Piece.mark ")"]
      else asOperand e (pieces e) Level.sequence c) ++ [Piece.mark ";"] := rfl

/-- No expression statement begins as a block or as a declaration of a function or a class, and no arrow has a body that begins as
a block, unless an opaque text comes first in it. The texts that are kept as they are begin with a token. -/
theorem printed_start :
    (∀ (e : Tree) (c : PrintContext), Spelt (fun text => Fronted text.toList) .expression e →
      Fronted (Piece.join (pieces (.mk (.expressionStatement e)) c)).toList ∧
      (Piece.join (pieces (.mk (.expressionStatement e)) c)).toList.head? ≠ some '\x7b' ∧
      ∀ word ∈ declaringWords, ¬ BeginsWord word (Piece.join (pieces (.mk (.expressionStatement e)) c)).toList) ∧
    ∀ (f : Func Tree) (c : PrintContext), Spelt (fun text => Fronted text.toList) .arrowBody f.body → f.body.node.isBlock = false →
      (leftmost f.body).node.isVerbatim = false →
      pieces (.mk (.arrowFunctionExpression f)) c = arrowHead f c ++ arrowBody f c ∧
      Fronted (Piece.join (arrowBody f c)).toList ∧ (Piece.join (arrowBody f c)).toList.head? ≠ some '\x7b' := by
  have hround : isPlainStart '(' = true := by decide
  simp only [toList_join]
  refine ⟨fun e c h => ?_, fun f c h hblock hverbatim => ⟨pieces_arrow hblock, ?_⟩⟩
  · obtain ⟨τ, hm, hk, hleft⟩ := h.leftmost nofun nofun
    have hstarts := h.starts (isPassed_of_allows (.inl rfl) h.allows) c
    rw [pieces_expressionStatement]
    split
    next => exact ⟨fronted_of_plain hround, no_brace_of_plain hround, no_word_of_plain hround⟩
    next hneeds =>
      rw [needsStatementParens_eq, Bool.not_eq_true, Bool.or_eq_false_iff] at hneeds
      have hmark : Edged [.mark ";"] := edged_mark rfl
      have hall := (hstarts.asOperand (t := e) (m := Level.sequence)).append hmark
      exact ⟨hall.fronted hleft.spelt, hall.no_brace hleft.spelt hneeds.1, hall.no_word hleft.spelt hm hk hneeds.2⟩
  · obtain ⟨τ, -, -, hleft⟩ := h.leftmost nofun nofun
    have hallows : f.body.node.isExpression = true := by simpa [Slot.allows, hblock] using h.allows
    have hstarts := h.starts (isPassed_of_allows (.inl rfl) hallows) c
    rw [arrowBody]
    split
    next => exact ⟨fronted_of_plain hround, no_brace_of_plain hround⟩
    next hneeds =>
      rw [startsWithBrace_eq hverbatim, Bool.not_eq_true] at hneeds
      have hall := hstarts.asOperand (t := f.body) (m := Level.assign)
      exact ⟨hall.fronted hleft.spelt, hall.no_brace hleft.spelt hneeds⟩

/-- A call of a function and then a template, both of which begin the statement by themselves. -/
def calledFunction : Tree :=
  let function : Tree := .mk (.functionExpression ⟨none, [], .mk (.blockStatement []), false, false⟩)
  .mk (.sequenceExpression [.mk (.callExpression function [] false), .mk (.verbatim "\x60t\x60")])

/-- An arrow that gives a member of an object. -/
def memberArrow : Func Tree :=
  ⟨none, [], .mk (.memberExpression (.mk (.objectExpression [])) (.mk (.identifier "a")) false false), false, false⟩

example : (Tree.mk (.expressionStatement calledFunction)).print = "(function () \x7b\x7d(), \x60t\x60);" ∧
    (Tree.mk (.arrowFunctionExpression memberArrow)).print = "() => (\x7b\x7d.a)" := by
  decide

theorem calledFunction_start :
    (Spelt (fun text => Fronted text.toList) .expression calledFunction ∧
      Spelt (fun text => Fronted text.toList) .arrowBody memberArrow.body) ∧
    ((Piece.join (pieces (.mk (.expressionStatement calledFunction)) {})).toList.head? ≠ some '\x7b' ∧
      ∀ word ∈ declaringWords, ¬ BeginsWord word (Piece.join (pieces (.mk (.expressionStatement calledFunction)) {})).toList) ∧
    (Piece.join (arrowBody memberArrow {})).toList.head? ≠ some '\x7b' := by
  have htemplate : Fronted ['\x60', 't', '\x60'] := ⟨_, _, rfl, by decide, nofun⟩
  have ha : Node.IsWord .memberName "a" := Node.isWord_letters (by decide) (by decide) (by decide)
  have hcalled : Spelt (fun text => Fronted text.toList) .expression calledFunction := by
    simp [calledFunction, Spelt.iff_mk, Slot.allows, Node.places, Node.placed, Node.funcPlaces, Node.IsSpelt, Node.isComplete,
      Node.chained, Node.isExpression, Node.isBlock, htemplate]
  have harrow : Spelt (fun text => Fronted text.toList) .arrowBody memberArrow.body := by
    simp [memberArrow, Spelt.iff_mk, Slot.allows, Node.places, Node.placed, Node.IsSpelt, Node.isComplete, Node.chained,
      Node.isExpression, ha]
  exact ⟨⟨hcalled, harrow⟩, (printed_start.1 _ {} hcalled).2, (printed_start.2 memberArrow {} harrow rfl rfl).2.2⟩

end Tree
end Graft
