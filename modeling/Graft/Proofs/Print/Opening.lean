import Graft.Proofs.Print.Places
/-!
# How printed expressions begin

The first character of an expression never makes a longer token with an operator in front of it, unless both are the same
sign, and it is a brace only where `startsWithBrace` says so (`Formed.begins`).
-/

namespace Graft.Grammar

open Lexical Graft.Tree
open Unicode (isAsciiLetter isAsciiDigit)

variable {A : Alphabet} {g : Goal} {p : Standing} {t u : Tree} {c : PrintContext} {ps qs : Pieces} {w : String} {ch : Char}

/-- What the first character of a printed tree tells of the tree. -/
structure Opens (t : Tree) (ch : Char) : Prop where
  plain : ch ≠ '=' ∧ ch ≠ '>'
  brace : ch = '\x7b' → startsWithBrace t = true
  sign : ∀ s, s = '+' ∨ s = '-' → ch = s → t.level < Level.unary ∨ t.node.startsWithSign s = true

/-- The pieces begin with a token whose first character is right for the tree. -/
def Begins (ps : Pieces) (t : Tree) : Prop :=
  ∃ w ch cs qs, (ps = .leaf w :: qs ∨ ps = .mark w :: qs) ∧ w.toList = ch :: cs ∧ Opens t ch

theorem opens_plain (h : isMark ch = false ∨ ch ∈ ['.', '(', '[', '~', '!']) : Opens t ch := by
  have hne : ∀ x ∈ ['=', '>', '\x7b', '+', '-'], ch ≠ x := by
    rintro x hx rfl
    simp only [List.mem_cons, List.not_mem_nil, or_false] at hx
    rcases hx with rfl | rfl | rfl | rfl | rfl <;> exact absurd h (by decide)
  refine ⟨⟨hne _ (by simp), hne _ (by simp)⟩, fun he => absurd he (hne _ (by simp)), ?_⟩
  rintro s (rfl | rfl) he
  · exact absurd he (hne _ (by simp))
  · exact absurd he (hne _ (by simp))

theorem Begins.append (h : Begins ps t) (qs : Pieces) : Begins (ps ++ qs) t := by
  obtain ⟨w, ch, cs, rest, he, hw, ho⟩ := h
  refine ⟨w, ch, cs, rest ++ qs, ?_, hw, ho⟩
  rcases he with rfl | rfl
  · exact .inl rfl
  · exact .inr rfl

theorem Begins.head_tokens (h : Begins ps t) (hb : startsWithBrace t = false) : (tokens ps).head? ≠ some "\x7b" := by
  obtain ⟨w, ch, cs, rest, he, hw, ho⟩ := h
  have hw' : w ≠ "\x7b" := by
    rintro rfl
    obtain ⟨rfl, -⟩ := List.cons.inj hw
    rw [ho.brace rfl] at hb
    cases hb
  rcases he with rfl | rfl
  · simpa using hw'
  · simpa using hw'

theorem Begins.head_chars (h : Begins ps t) (r : List Char) : ∃ ch cs, chars ps ++ r = ch :: cs ∧ Opens t ch := by
  obtain ⟨w, ch, cs, rest, he, hw, ho⟩ := h
  rcases he with rfl | rfl
  · exact ⟨ch, _, by rw [chars_leaf, hw]; rfl, ho⟩
  · exact ⟨ch, _, by rw [chars_mark, hw]; rfl, ho⟩

/-- In parentheses, everything begins well. -/
theorem Begins.enclose {b : Bool} (h : Begins ps u) (hb : b = false → ∀ ch, Opens u ch → Opens t ch) :
    Begins (Grammar.enclose b ps) t := by
  cases b with
  | true => exact ⟨"(", '(', [], _, .inr rfl, rfl, opens_plain (.inr (by simp))⟩
  | false =>
    obtain ⟨w, ch, cs, rest, he, hw, ho⟩ := h
    exact ⟨w, ch, cs, rest, he, hw, hb rfl ch ho⟩

theorem begins_letter (hw : ∃ ch cs, w.toList = ch :: cs ∧ isMark ch = false) : Begins (.mark w :: qs) t := by
  obtain ⟨ch, cs, he, hm⟩ := hw
  exact ⟨w, ch, cs, qs, .inr rfl, he, opens_plain (.inl hm)⟩

theorem opens_sign (h : ch = '+' ∨ ch = '-') (hs : t.node.startsWithSign ch = true) : Opens t ch := by
  refine ⟨?_, ?_, ?_⟩
  · rcases h with rfl | rfl <;> decide
  · rintro rfl
    rcases h with h | h <;> exact absurd h (by decide)
  · rintro s _ rfl
    exact .inr hs

theorem begins_unary {op : String} {e : Tree} (h : op ∈ unaryOperators) :
    Begins (.mark op :: qs) (.mk (.unaryExpression op e)) := by
  simp only [unaryOperators, List.mem_cons, List.not_mem_nil, or_false] at h
  rcases h with rfl | rfl | rfl | rfl | rfl | rfl | rfl
  · exact begins_letter ⟨'d', _, rfl, by decide⟩
  · exact begins_letter ⟨'v', _, rfl, by decide⟩
  · exact begins_letter ⟨'t', _, rfl, by decide⟩
  · exact ⟨"+", '+', [], _, .inr rfl, rfl, opens_sign (.inl rfl) rfl⟩
  · exact ⟨"-", '-', [], _, .inr rfl, rfl, opens_sign (.inr rfl) rfl⟩
  · exact ⟨"~", '~', [], _, .inr rfl, rfl, opens_plain (.inr (by simp))⟩
  · exact ⟨"!", '!', [], _, .inr rfl, rfl, opens_plain (.inr (by simp))⟩

theorem begins_update {op : String} {e : Tree} (h : op ∈ updateOperators) :
    Begins (.mark op :: qs) (.mk (.updateExpression op true e)) := by
  simp only [updateOperators, List.mem_cons, List.not_mem_nil, or_false] at h
  rcases h with rfl | rfl
  · exact ⟨"++", '+', _, _, .inr rfl, rfl, opens_sign (.inl rfl) rfl⟩
  · exact ⟨"--", '-', _, _, .inr rfl, rfl, opens_sign (.inr rfl) rfl⟩

/-- An expression that binds at least like a call begins with no sign. -/
theorem Opens.unsigned (h : Opens t ch) (hl : Level.call ≤ t.level) : ch ≠ '+' ∧ ch ≠ '-' := by
  have hno : ∀ s, ¬ (t.level < Level.unary ∨ t.node.startsWithSign s = true) := by
    intro s hs
    rcases hs with hs | hs
    · exact absurd (Nat.lt_of_le_of_lt hl hs) (by decide)
    · unfold Tree.level at hl
      unfold Node.startsWithSign at hs
      split at hs
      next he =>
        rw [he] at hl
        exact absurd hl (by decide : ¬ Level.call ≤ Level.unary)
      next isPrefix _ he =>
        rw [he] at hl
        cases isPrefix with
        | true => exact absurd hl (by decide : ¬ Level.call ≤ Level.unary)
        | false => cases hs
      next => cases hs
  exact ⟨fun he => hno _ (h.sign '+' (.inl rfl) he), fun he => hno _ (h.sign '-' (.inr rfl) he)⟩

/-- A tree that begins like a tighter one. -/
theorem Opens.of_call (h : Opens u ch) (hl : Level.call ≤ u.level) (hb : startsWithBrace t = startsWithBrace u) :
    Opens t ch := by
  refine ⟨h.plain, fun he => hb ▸ h.brace he, ?_⟩
  rintro s (rfl | rfl) he
  · exact absurd he (h.unsigned hl).1
  · exact absurd he (h.unsigned hl).2

/-- A tree that begins like another, and binds loosely. -/
theorem Opens.of_loose (h : Opens u ch) (hl : t.level < Level.unary) (hb : startsWithBrace t = startsWithBrace u) :
    Opens t ch :=
  ⟨h.plain, fun he => hb ▸ h.brace he, fun _ _ _ => .inl hl⟩

theorem Leaf.first (h : Leaf A g w t) : ∃ ch cs, w.toList = ch :: cs ∧ (isMark ch = false ∨ ch = '.') := by
  cases h with
  | identifier h =>
    obtain ⟨v, hv, -⟩ := h
    obtain ⟨ch, cs, he, hc⟩ := hv.head
    exact ⟨ch, cs, he, .inl (name_plain (by simpa [startsName] using hc)).1⟩
  | number h _ =>
    obtain ⟨ch, cs, he, hc⟩ := h.head
    rcases hc with hc | ⟨rfl, -⟩
    · exact ⟨ch, cs, he, .inl (digit_plain hc).1⟩
    · exact ⟨'.', cs, he, .inr rfl⟩
  | string h =>
    obtain ⟨quote, body, hq, -, he⟩ := h
    exact ⟨quote, _, he, .inl (quote_plain hq).1⟩
  | this => exact ⟨'t', _, rfl, .inl (by decide)⟩
  | null => exact ⟨'n', _, rfl, .inl (by decide)⟩
  | yes => exact ⟨'t', _, rfl, .inl (by decide)⟩
  | no => exact ⟨'f', _, rfl, .inl (by decide)⟩

theorem leaf_pieces (h : Leaf A g w t) : pieces t c = [.leaf w] := by
  cases h <;> rfl

theorem key_operand {w : String} (h : Key A w t) : operand t Level.primary c = [.leaf w] := by
  cases h <;> rfl

theorem Standing.linked_ne (hp : p ≠ .member) (opt : Bool) : p.linked opt ≠ .member := by
  cases opt with
  | true => nofun
  | false => exact hp

theorem Formed.of_member (h : Formed A g .member t) : t.level = Level.primary := by
  generalize hp : Standing.member = p at h
  cases h with
  | property => rfl
  | computedProperty => rfl
  | call hm => exact absurd hp.symm (Standing.linked_ne hm _)
  | member hm => exact absurd hp.symm (Standing.linked_ne hm _)
  | index hm => exact absurd hp.symm (Standing.linked_ne hm _)
  | _ => cases hp

theorem Formed.operand_member (h : Formed A g .member t) : operand t Level.assign c = pieces t c := by
  rw [operand, h.of_member]
  rfl

theorem Formed.of_chained (h : Formed A g .chained t) :
    Level.call ≤ t.level ∧ t.node.isChain = false ∧ t.node.isNumber = false := by
  generalize hp : Standing.chained = p at h
  cases h with
  | call => exact ⟨Nat.le_refl _, rfl, rfl⟩
  | member => exact ⟨Nat.le_refl _, rfl, rfl⟩
  | index => exact ⟨Nat.le_refl _, rfl, rfl⟩
  | _ => cases hp

theorem Formed.not_block (h : Formed A g p t) : t.node.isBlock = false := by
  cases h with
  | leaf h => cases h <;> rfl
  | _ => rfl

theorem Begins.operand (h : Begins (pieces u c) u) {least : Nat} (ho : least ≤ u.level → ∀ ch, Opens u ch → Opens t ch) :
    Begins (Grammar.operand u least c) t :=
  h.enclose fun hb => ho (Nat.not_lt.1 (of_decide_eq_false hb))

theorem Begins.operand_head (h : Begins (pieces u c) u) (least : Nat) (r : List Char) :
    ∃ ch cs, chars (Grammar.operand u least c) ++ r = ch :: cs ∧ (ch = '(' ∨ Opens u ch ∧ least ≤ u.level) := by
  unfold Grammar.operand
  cases hb : decide (u.level < least) with
  | true => exact ⟨'(', _, rfl, .inl rfl⟩
  | false =>
    obtain ⟨ch, cs, he, ho⟩ := h.head_chars r
    exact ⟨ch, cs, he, .inr ⟨ho, Nat.not_lt.1 (of_decide_eq_false hb)⟩⟩

/-- The left operand of an operator. -/
theorem begins_binary (hc : c.noIn = false) {op : String} {l r : Tree} (h : Begins (pieces l c) l)
    (ho : ∀ ch, Opens l ch → Opens t ch) : Begins (binaryPieces op l (pieces l) r (pieces r) c) t := by
  by_cases hop : op = "**"
  · subst hop
    rw [binaryPieces_power hc, List.append_assoc]
    exact (h.enclose fun _ => ho).append _
  · rw [binaryPieces_eq hc hop, List.append_assoc]
    exact (h.enclose fun _ => ho).append _

theorem begins_operands {e : Tree} {es : List Tree} (h : Begins (pieces e c) e) (ho : ∀ ch, Opens e ch → Opens t ch) :
    Begins (operands (e :: es) c) t := by
  have he : Begins (operand e Level.assign c) t := h.operand fun _ => ho
  cases es with
  | nil => exact he
  | cons f fs =>
    have : operands (e :: f :: fs) c = operand e Level.assign c ++ [.mark ",", .blank] ++ operands (f :: fs) c := rfl
    rw [this, List.append_assoc]
    exact he.append _

theorem Formed.begins (h : Formed A g p t) (hp : p ≠ .member) (hc : c.noIn = false) : Begins (pieces t c) t := by
  -- A form that begins with an operand opens as the operand does, or with a parenthesis.
  induction h with
  | leaf h =>
    obtain ⟨ch, cs, he, hch⟩ := h.first
    rw [leaf_pieces h]
    refine ⟨_, ch, cs, [], .inl rfl, he, opens_plain ?_⟩
    rcases hch with hch | rfl
    · exact .inl hch
    · exact .inr (by simp)
  | array =>
    rw [pieces_array hc]
    exact ⟨"[", '[', [], _, .inr rfl, rfl, opens_plain (.inr (by simp))⟩
  | @object g ps _ _ =>
    have ho : Opens (.mk (.objectExpression ps)) '\x7b' :=
      ⟨by decide, fun _ => rfl, by rintro s (rfl | rfl) he <;> exact absurd he (by decide)⟩
    cases ps with
    | nil => exact ⟨"\x7b", '\x7b', [], _, .inr rfl, rfl, ho⟩
    | cons p ps =>
      rw [pieces_object hc]
      exact ⟨"\x7b", '\x7b', [], _, .inr rfl, rfl, ho⟩
  | property => exact absurd rfl hp
  | computedProperty => exact absurd rfl hp
  | @arrow g isAsync params body _ hb _ =>
    rw [pieces_arrow hc hb.not_block]
    cases isAsync with
    | true => exact begins_letter ⟨'a', _, rfl, by decide⟩
    | false => exact ⟨"(", '(', [], _, .inr rfl, rfl, opens_plain (.inr (by simp))⟩
  | @unary g op e hop _ _ =>
    rw [pieces_unary hc]
    exact begins_unary hop
  | @update g op isPrefix e hop _ he ih =>
    cases isPrefix with
    | true =>
      rw [pieces_before hc]
      exact begins_update hop
    | false =>
      rw [pieces_after hc]
      apply Begins.append
      exact (ih nofun).operand fun hl ch ho => ho.of_call hl rfl
  | @binary g op l r _ _ _ ihl _ =>
    exact begins_binary hc (ihl nofun) fun ch ho => ho.of_loose (Nat.lt_succ_of_le (ofOperator_le op)) rfl
  | @logical g op l r _ _ _ ihl _ =>
    exact begins_binary hc (ihl nofun) fun ch ho => ho.of_loose (Nat.lt_succ_of_le (ofOperator_le op)) rfl
  | assignment _ _ _ _ ihl _ =>
    rw [pieces_assignment hc, List.append_assoc]
    apply Begins.append
    exact (ihl nofun).operand fun _ ch ho => ho.of_loose (by decide : Level.assign < Level.unary) rfl
  | conditional _ _ _ iht _ _ =>
    rw [pieces_conditional hc, List.append_assoc, List.append_assoc, List.append_assoc]
    apply Begins.append
    exact (iht nofun).operand fun _ ch ho => ho.of_loose (by decide : Level.conditional < Level.unary) rfl
  | call hm he _ ih _ =>
    rw [pieces_call hc, List.append_assoc]
    apply Begins.append
    refine (ih hm).enclose fun hb ch ho => ho.of_call ?_ rfl
    rw [Bool.or_eq_false_iff, decide_eq_false_iff_not, Nat.not_lt] at hb
    exact hb.2
  | new =>
    rw [pieces_new hc]
    exact begins_letter ⟨'n', _, rfl, by decide⟩
  | member hm he _ ih =>
    rw [pieces_member hc]
    apply Begins.append
    refine (ih hm).enclose fun hb ch ho => ho.of_call ?_ rfl
    rw [Bool.or_eq_false_iff, Bool.or_eq_false_iff, decide_eq_false_iff_not, Nat.not_lt] at hb
    exact hb.2.2
  | index hm he _ ih _ =>
    rw [pieces_index hc, List.append_assoc, List.append_assoc]
    apply Begins.append
    refine (ih hm).enclose fun hb ch ho => ho.of_call ?_ rfl
    rw [Bool.or_eq_false_iff, Bool.or_eq_false_iff, decide_eq_false_iff_not, Nat.not_lt] at hb
    exact hb.2.2
  | chain he ih =>
    obtain ⟨w, ch, cs, qs, hps, hw, ho⟩ := ih nofun
    exact ⟨w, ch, cs, qs, hps, hw, ho.of_call he.of_chained.1 rfl⟩
  | await =>
    rw [pieces_await hc]
    exact begins_letter ⟨'a', _, rfl, by decide⟩
  | @sequence g es hlen _ ih =>
    cases es with
    | nil => exact absurd hlen (by decide)
    | cons e es =>
      show Begins (listed (e :: es) c) _
      rw [listed_eq hc]
      exact begins_operands (ih e List.mem_cons_self nofun) fun ch ho =>
        ho.of_loose (by decide : Level.sequence < Level.unary) rfl

end Graft.Grammar
