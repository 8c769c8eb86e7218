import Graft.Proofs.Print.Containment
import Graft.Proofs.Print.Spacing
/-!
# Trees whose texts are tokens

`Tree.Spelt` says that a tree could have been parsed: every node is allowed where it stands and has the parts it cannot do without,
names are no keywords, literals and operators are those of the language. What a verbatim text has to be like is left open; where
there is none, such a tree is well-formed (`Tree.Spelt.wellFormed`).
-/

namespace Graft

open Lexical
open Unicode (isAsciiDigit)

namespace Node
variable {α : Type}

/-- The text of an identifier. Behind a dot and as a key it may be a keyword. -/
def IsWord (σ : Slot) (name : String) : Prop :=
  ∃ v, IsName .reader name.toList v ∧ (String.ofList v ∈ Grammar.reservedWords → σ = .memberName ∨ σ = .key)

theorem isWord_letters {σ : Slot} {name : String} (hne : name.toList ≠ []) (h : name.toList.all Unicode.isAsciiLetter = true)
    (hr : name ∉ Grammar.reservedWords) : IsWord σ name :=
  ⟨name.toList, Grammar.isName_word hne h, fun hv => absurd (by simpa using hv) hr⟩

/-- The text of a literal. A regular expression does not open a comment. -/
def IsLiteral : LiteralValue → String → Prop
  | .string _, raw => IsString raw.toList
  | .number _, raw => IsNumeral raw.toList
  | .boolean b, raw => raw = if b then "true" else "false"
  | .null, raw => raw = "null"
  | .regex .., raw => ∃ c cs, raw.toList = '/' :: c :: cs ∧ c ≠ '/' ∧ c ≠ '*'

/-- The texts of a node are tokens of their kind, verbatim texts such as `kept` asks for. -/
def IsSpelt (kept : String → Prop) (σ : Slot) : Node α → Prop
  | .identifier name => IsWord σ name
  | .privateIdentifier name => ∃ v, IsName .reader name.toList v
  | .literal value raw => IsLiteral value raw
  | .unaryExpression operator _ => operator ∈ Grammar.unaryOperators
  | .updateExpression operator _ _ => operator ∈ Grammar.updateOperators
  | .binaryExpression operator _ _ => operator ∈ Grammar.binaryOperators
  | .logicalExpression operator _ _ => operator ∈ Grammar.logicalOperators
  | .assignmentExpression operator _ _ => operator ∈ Grammar.assignmentOperators
  | .verbatim text => kept text
  | _ => True

/-- A sequence has an expression, and `try` a handler or a finalizer. -/
def isComplete : Node α → Bool
  | .sequenceExpression expressions => !expressions.isEmpty
  | .tryStatement _ handler finalizer => handler.isSome || finalizer.isSome
  | _ => true

end Node

namespace Tree

/-- A tree as the parser could give it. -/
inductive Spelt (kept : String → Prop) : Slot → Tree → Prop
  | mk {σ : Slot} {n : Node Tree} (allowed : σ.allows n = true) (spelt : n.IsSpelt kept σ) (complete : n.isComplete = true)
    (linked : ∀ e ∈ n.chained, e.node.isLink = true) (below : ∀ p ∈ n.places σ, Spelt kept p.2 p.1) : Spelt kept σ (.mk n)

namespace Spelt
variable {kept : String → Prop} {σ : Slot} {t : Tree} {n : Node Tree}

theorem iff_mk : Spelt kept σ (.mk n) ↔ σ.allows n = true ∧ n.IsSpelt kept σ ∧ n.isComplete = true ∧
    (∀ e ∈ n.chained, e.node.isLink = true) ∧ ∀ p ∈ n.places σ, Spelt kept p.2 p.1 :=
  ⟨fun | .mk h1 h2 h3 h4 h5 => ⟨h1, h2, h3, h4, h5⟩, fun ⟨h1, h2, h3, h4, h5⟩ => .mk h1 h2 h3 h4 h5⟩

theorem allows (h : Spelt kept σ t) : σ.allows t.node = true := by
  cases h with
  | mk h => exact h

theorem spelt (h : Spelt kept σ t) : t.node.IsSpelt kept σ := by
  cases h with
  | mk _ h => exact h

theorem complete (h : Spelt kept σ t) : t.node.isComplete = true := by
  cases h with
  | mk _ _ h => exact h

theorem places (h : Spelt kept σ t) : ∀ p ∈ t.node.places σ, Spelt kept p.2 p.1 := by
  cases h with
  | mk _ _ _ _ h => exact h

theorem place {u : Tree} {τ : Slot} (h : Spelt kept σ (.mk n)) (hu : (u, τ) ∈ n.places σ) : Spelt kept τ u := h.places _ hu

end Spelt

end Tree

/-! ## First characters -/

namespace Lexical
variable {w v : List Char} {name raw : String} {c : Char} {cs : List Char}

/-- The characters that brackets, a semicolon and the marks of a conditional begin with. -/
def isDelimiting (c : Char) : Bool := c ∈ "()[]\x7b\x7d;?:".toList

theorem isMark_of_delimiting (h : isDelimiting c = true) : isMark c = true := by
  have key : "()[]\x7b\x7d;?:".toList.all isMark = true := by decide
  exact List.all_eq_true.1 key c (of_decide_eq_true h)

/-- No bracket, and not among the marks that end a part of a statement. -/
def IsInline (w : String) : Prop := isBracket w = false ∧ w ∉ [";", "?", ":"]

theorem isInline_of_first (hw : name.toList = c :: cs) (hc : isDelimiting c = false) : IsInline name := by
  refine ⟨?_, ?_⟩
  · by_contra hb
    rw [Bool.not_eq_false, isBracket, Bool.or_eq_true] at hb
    unfold opening? closing? at hb
    rcases hb with hb | hb
    · split at hb <;> first | (cases hb; done) | (cases hw; cases hc)
    · split at hb <;> first | (cases hb; done) | (cases hw; cases hc)
  · simp only [List.mem_cons, List.not_mem_nil, or_false]
    rintro (rfl | rfl | rfl) <;> (cases hw; cases hc)

theorem not_delimiting (h : isMark c = false) : isDelimiting c = false := by
  by_contra hd
  rw [isMark_of_delimiting (Bool.not_eq_false _ ▸ hd)] at h
  cases h

/-- A name without escapes spells itself. -/
theorem Spells.plain {A : Alphabet} (h : Spells A w v) (hw : '\\' ∉ w) : v = w := by
  induction h with
  | done => rfl
  | char _ _ ih => rw [ih fun hc => hw (List.mem_cons_of_mem _ hc)]
  | escape => exact absurd List.mem_cons_self hw

theorem IsName.first {A : Alphabet} (h : IsName A w v) : ∃ c cs, w = c :: cs ∧ startsName A c = true := by
  obtain ⟨c, cs, hw, hc⟩ := h.head
  exact ⟨c, cs, hw, by simpa [startsName] using hc⟩

/-- The first character of a literal that is no word. -/
def StartsLiteral (c : Char) (cs : List Char) : Prop :=
  isQuote c = true ∨ isAsciiDigit c = true ∨ c = '.' ∧ cs ≠ [] ∨ c = '/' ∧ ∀ d ∈ cs.head?, d ≠ '/' ∧ d ≠ '*'

theorem StartsLiteral.ne (h : StartsLiteral c cs) {d : Char}
    (hd : (!isQuote d && !isAsciiDigit d && d ≠ '.' && d ≠ '/') = true := by decide) : c ≠ d := by
  rintro rfl
  simp only [Bool.and_eq_true, Bool.not_eq_true', decide_eq_true_eq] at hd
  obtain ⟨⟨⟨h1, h2⟩, h3⟩, h4⟩ := hd
  rcases h with h | h | ⟨h, -⟩ | ⟨h, -⟩
  · simp [h1] at h
  · simp [h2] at h
  · exact h3 h
  · exact h4 h

theorem literal_first {value : LiteralValue} (h : Node.IsLiteral value raw) :
    raw ∈ ["true", "false", "null"] ∨ ∃ c cs, raw.toList = c :: cs ∧ StartsLiteral c cs := by
  cases value with
  | string s =>
    obtain ⟨quote, body, hq, -, hw⟩ := h
    exact .inr ⟨quote, _, hw, .inl hq⟩
  | number x =>
    obtain ⟨c, cs, hw, hc | ⟨rfl, d, ds, rfl, -⟩⟩ := IsNumeral.head h
    · exact .inr ⟨c, cs, hw, .inr (.inl hc)⟩
    · exact .inr ⟨'.', d :: ds, hw, .inr (.inr (.inl ⟨rfl, List.cons_ne_nil d ds⟩))⟩
  | boolean b =>
    obtain rfl : raw = _ := h
    cases b <;> exact .inl (by decide)
  | null =>
    obtain rfl : raw = _ := h
    exact .inl (by decide)
  | regex pattern flags =>
    obtain ⟨c, cs, hw, hc⟩ := h
    refine .inr ⟨'/', c :: cs, hw, .inr (.inr (.inr ⟨rfl, ?_⟩))⟩
    rintro d ⟨⟩
    exact hc

end Lexical

/-! ## Such trees are well-formed -/

namespace Node
variable {α : Type} {σ : Slot} {n : Node α} {w : String}

theorem isInline_of_mem {ws : List String} (hw : w ∈ ws)
    (hws : ∀ w ∈ ws, isBracket w = false ∧ w ∉ [";", "?", ":"] := by decide) : IsInline w :=
  hws w hw

theorem isInline_literal {value : LiteralValue} (h : IsLiteral value w) : IsInline w := by
  rcases literal_first h with h | ⟨c, cs, hw, hc⟩
  · exact isInline_of_mem h
  · refine isInline_of_first hw ?_
    by_contra hd
    have key : "()[]\x7b\x7d;?:".toList.all (fun d => !isQuote d && !isAsciiDigit d && d ≠ '.' && d ≠ '/') = true := by decide
    exact hc.ne (List.all_eq_true.1 key c (of_decide_eq_true (Bool.not_eq_false _ ▸ hd))) rfl

/-- The texts of a node that is no verbatim text stand inside of a line. -/
theorem IsSpelt.inline {kept : String → Prop} (h : n.IsSpelt kept σ) : ∀ w ∈ n.words, IsInline w := by
  cases n with
  | identifier name =>
    obtain ⟨v, hv, -⟩ := h
    obtain ⟨c, cs, hw, hc⟩ := hv.first
    exact List.forall_mem_singleton.2 (isInline_of_first hw (not_delimiting (name_plain hc).1))
  | privateIdentifier name =>
    have hw : ("#" ++ name).toList = '#' :: name.toList := by simp
    exact List.forall_mem_singleton.2 (isInline_of_first hw rfl)
  | literal value raw => exact List.forall_mem_singleton.2 (isInline_literal h)
  | unaryExpression | updateExpression | binaryExpression | logicalExpression | assignmentExpression =>
    exact List.forall_mem_singleton.2 (isInline_of_mem h)
  | _ => exact fun _ hw => nomatch hw

/-- An `in` among them is a comparison or the name of a member. -/
theorem IsSpelt.isBareIn {kept : String → Prop} (h : n.IsSpelt kept σ) (hin : "in" ∈ n.words) :
    n.isBareIn = true ∨ σ = .memberName ∨ σ = .key := by
  have operator {w : String} {ws : List String} (hw : w ∈ ws) (hin : "in" ∈ [w]) (hws : "in" ∉ ws := by decide) : False :=
    hws (List.mem_singleton.1 hin ▸ hw)
  cases n with
  | identifier name =>
    obtain ⟨v, hv, hr⟩ := h
    obtain rfl : "in" = name := List.mem_singleton.1 hin
    have hv : v = "in".toList := hv.1.plain (by decide)
    exact .inr (hr (by rw [hv]; decide))
  | privateIdentifier name =>
    have hw : "in".toList = ("#" ++ name).toList := congrArg String.toList (List.mem_singleton.1 hin)
    rw [String.toList_append] at hw
    cases hw
  | literal value raw =>
    obtain rfl : "in" = raw := List.mem_singleton.1 hin
    rcases literal_first h with h | ⟨c, cs, hw, hc⟩
    · exact absurd h (by decide)
    · have hi : 'i' = c := (List.cons.inj hw).1
      exact absurd hi.symm (hc.ne (d := 'i'))
  | binaryExpression operator l r => exact .inl (by simpa [Node.isBareIn] using (List.mem_singleton.1 hin).symm)
  | unaryExpression | updateExpression | logicalExpression | assignmentExpression => exact (operator h hin).elim
  | _ => cases hin

theorem IsSpelt.spelled {kept : String → Prop} (h : n.IsSpelt kept σ) : n.Spelled σ := fun w hw =>
  ⟨(h.inline w hw).1, fun he => (h.inline w hw).2 (by simp [he]), fun he => h.isBareIn (he ▸ hw)⟩

end Node

namespace Tree
variable {σ : Slot} {t : Tree}

theorem Spelt.wellFormed (h : Spelt (fun _ => False) σ t) : WellFormed σ t := by
  induction h with
  | @mk σ n allowed spelt _ linked _ ih =>
    refine .mk allowed ?_ spelt.spelled linked ih
    cases n with
    | verbatim text => exact spelt.elim
    | _ => rfl

end Tree
end Graft
