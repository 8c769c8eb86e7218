import Graft.Proofs.Print.Opening
/-!
# Printed tokens do not run together

In the text of a well-formed tree every token is the one a reader takes (`Formed.spaced`), whatever comes after the text
as long as it starts with a character that can follow the tree: most trees take a blank, a bracket, a comma and the like
(`Soft`), an access or a call also a point and a sign (`Firm`).
-/

namespace Graft.Grammar

open Lexical Graft.Tree
open Unicode (isAsciiLetter isAsciiDigit)

variable {A : Alphabet} {g : Goal} {p : Standing} {t : Tree} {c : PrintContext} {r : List Char} {s : String}

def softChars : List Char := [' ', ')', ']', ',', '(', '[', '?', ':']

def firmChars : List Char := softChars ++ ['.', '+', '-']

def Soft (r : List Char) : Prop := ∀ ch ∈ r.head?, ch ∈ softChars

def Firm (r : List Char) : Prop := ∀ ch ∈ r.head?, ch ∈ firmChars

theorem Soft.firm (h : Soft r) : Firm r := fun ch hch => List.mem_append_left _ (h ch hch)

theorem soft_cons {ch : Char} (h : ch ∈ softChars) (r : List Char) : Soft (ch :: r) := by
  rintro _ ⟨⟩
  exact h

theorem firm_cons {ch : Char} (h : ch ∈ firmChars) (r : List Char) : Firm (ch :: r) := by
  rintro _ ⟨⟩
  exact h

/-- Can a link be appended? -/
def isFirm (t : Tree) : Bool := decide (Level.call ≤ t.level) && !t.node.isNumber && symbol t ≠ .property

/-- The texts that can follow a tree. -/
def Follows (t : Tree) (r : List Char) : Prop := Soft r ∨ isFirm t = true ∧ Firm r

theorem Follows.soft (h : Follows t r) (hf : ¬ isFirm t = true) : Soft r := by
  rcases h with h | ⟨h, -⟩
  · exact h
  · exact absurd h hf

theorem not_firm (h : ¬ Level.call ≤ t.level) : ¬ isFirm t = true := by
  simp [isFirm, h]

theorem Formed.isFirm (h : Formed A g p t) (hp : p ≠ .member) (hl : Level.call ≤ t.level) (hn : t.node.isNumber = false) :
    isFirm t = true := by
  have hs : symbol t ≠ .property := by
    intro he
    have ha := h.allows
    cases p with
    | whole => exact ha.2 he
    | chained => exact absurd (he.symm.trans ha) nofun
    | member => exact hp rfl
  simp [Grammar.isFirm, hl, hn, hs]

theorem Follows.firm (h : Follows t r) : Firm r := by
  rcases h with h | ⟨-, h⟩
  · exact h.firm
  · exact h

/-! ## Tokens in front of a text -/

theorem firm_plain {ch : Char} (h : ch ∈ firmChars) : isNameChar A ch = false ∧ startsName A ch = false := by
  have key : firmChars.all (fun ch => ' ' ≤ ch && ch ≤ '~' && ch ∉ ['\\', '\x7b', '\x7d'] &&
      !(isAsciiLetter ch || isAsciiDigit ch || ch = '$' || ch = '_')) = true := by decide
  have hch := List.all_eq_true.1 key ch h
  simp only [Bool.and_eq_true, Bool.not_eq_true', Bool.or_eq_false_iff, decide_eq_true_eq, decide_eq_false_iff_not,
    List.mem_cons, List.not_mem_nil, or_false, not_or] at hch
  obtain ⟨⟨⟨h1, h2⟩, h3⟩, h4⟩ := hch
  constructor
  · rw [isNameChar, A.ascii_part ch h1 h2]
    simp [h3, h4]
  · rw [startsName, A.ascii_start ch h1 h2]
    simp [h3, h4]

theorem stands_name_firm {w v : List Char} (h : IsName A w v) (hr : Firm r) : Stands A w r :=
  stands_name h fun ch hch => (firm_plain (hr ch hch)).1

theorem stands_numeral_soft {w : List Char} (h : IsNumeral w) (hr : Soft r) : Stands A w r := by
  have key : softChars.any isNumeralChar = false := by decide
  apply stands_numeral h
  · exact fun ch hch => Bool.eq_false_iff.2 (List.any_eq_false.1 key ch (hr ch hch))
  · exact fun ch hch => (firm_plain (hr.firm ch hch)).2

/-- A word in ASCII letters is a name. -/
theorem isName_word {w : List Char} (hne : w ≠ []) (h : w.all isAsciiLetter = true) : IsName A w w := by
  have hascii : ∀ ch, isAsciiLetter ch = true → ' ' ≤ ch ∧ ch ≤ '~' := by
    intro ch hch
    simp only [isAsciiLetter, Bool.or_eq_true, Bool.and_eq_true, decide_eq_true_eq] at hch
    rcases hch with ⟨h1, h2⟩ | ⟨h1, h2⟩
    · exact ⟨le_trans (by decide) h1, le_trans h2 (by decide)⟩
    · exact ⟨le_trans (by decide) h1, le_trans h2 (by decide)⟩
  constructor
  · clear hne
    induction w with
    | nil => exact .done
    | cons ch w ih =>
      obtain ⟨hch, hw⟩ := Bool.and_eq_true_iff.1 h
      refine .char ?_ (ih hw)
      simp [A.ascii_part ch (hascii ch hch).1 (hascii ch hch).2, hch]
  · cases w with
    | nil => exact absurd rfl hne
    | cons ch w =>
      have hch := (Bool.and_eq_true_iff.1 h).1
      refine ⟨ch, rfl, ?_⟩
      simp [A.ascii_start ch (hascii ch hch).1 (hascii ch hch).2, hch]

def keywords : List String :=
  ["delete", "void", "typeof", "instanceof", "in", "new", "await", "async", "this", "null", "true", "false"]

theorem stands_keyword (h : s ∈ keywords) (hr : Firm r) : Stands A s.toList r := by
  have key : ∀ s ∈ keywords, s.toList ≠ [] ∧ s.toList.all isAsciiLetter = true := by decide
  exact stands_name_firm (isName_word (key s h).1 (key s h).2) hr

def brackets : List String := ["(", ")", "[", "]", "\x7b", "\x7d", ",", ":"]

/-- A bracket stands in front of anything. -/
theorem stands_bracket (h : s ∈ brackets) (r : List Char) : Stands A s.toList r := by
  have key : ∀ s ∈ brackets, s.toList ∈ punctuators ∧ goesOn s.toList = [] ∧ s.toList ≠ ['?', '.'] ∧ s.toList ≠ ['.'] := by
    decide +kernel
  obtain ⟨h1, h2, h3, h4⟩ := key s h
  apply stands_punctuator h1
  intro ch _
  simp [mayPrecede, h2, h3, h4]

theorem stands_blank (h : s.toList ∈ punctuators) (r : List Char) : Stands A s.toList (' ' :: r) := by
  have key : ∀ w ∈ punctuators, mayPrecede w ' ' = true := by decide
  apply stands_punctuator h
  rintro _ ⟨⟩
  exact key _ h

theorem stands_update (h : s ∈ updateOperators) (hr : ∀ ch ∈ r.head?, ch ≠ '>') : Stands A s.toList r := by
  have key : ∀ s ∈ updateOperators, s.toList ∈ punctuators ∧ (goesOn s.toList).all (· = '>') = true ∧
      s.toList ≠ ['?', '.'] ∧ s.toList ≠ ['.'] := by decide
  obtain ⟨h1, h2, h3, h4⟩ := key s h
  apply stands_punctuator h1
  intro ch hch
  have : ch ∉ goesOn s.toList := fun hin => hr ch hch (of_decide_eq_true (List.all_eq_true.1 h2 ch hin))
  simp [mayPrecede, this, h3, h4]

theorem stands_question (hr : ∀ ch ∈ r.head?, isAsciiDigit ch = false) : Stands A "?.".toList r := by
  have key : goesOn ['?', '.'] = [] := by decide
  apply stands_punctuator (by decide)
  intro ch hch
  simp [mayPrecede, key, hr ch hch]

theorem stands_point {w v : List Char} (h : IsName A w v) (opt : Bool) (r : List Char) :
    Stands A (if opt then "?." else ".").toList (w ++ r) := by
  obtain ⟨ch, cs, rfl, hch⟩ := h.head
  obtain ⟨hm, -, hd⟩ := name_plain (A := A) (by simpa [startsName] using hch : startsName A ch = true)
  have hhead : ∀ x ∈ (ch :: cs ++ r).head?, x = ch := by
    rintro _ ⟨⟩
    rfl
  cases opt with
  | true => exact stands_question fun x hx => hhead x hx ▸ hd
  | false =>
    have key : goesOn ['.'] = ['.'] := by decide
    apply stands_punctuator (by decide)
    intro x hx
    rw [hhead x hx]
    have hne : ch ≠ '.' := by
      rintro rfl
      exact absurd hm (by decide)
    simp [mayPrecede, key, hd, hne]

theorem Leaf.stands (h : Leaf A g s t) (hr : Follows t r) : Stands A s.toList r := by
  cases h with
  | identifier h =>
    obtain ⟨v, hv, -⟩ := h
    exact stands_name_firm hv hr.firm
  | number h _ =>
    exact stands_numeral_soft h (hr.soft (by simp [isFirm, Tree.node, Node.isNumber]))
  | string h => exact stands_string h r
  | this => exact stands_keyword (by decide) hr.firm
  | null => exact stands_keyword (by decide) hr.firm
  | yes => exact stands_keyword (by decide) hr.firm
  | no => exact stands_keyword (by decide) hr.firm

theorem Key.stands {k : Tree} (h : Key A s k) (hr : Soft r) : Stands A s.toList r := by
  cases h with
  | name h => exact stands_name_firm h hr.firm
  | number h _ => exact stands_numeral_soft h hr
  | string h => exact stands_string h r

/-! ## Operands -/

theorem spaced_bracketed {o e : String} {ps : Pieces} (ho : o ∈ brackets) (he : e = ")" ∨ e = "]")
    (h : ∀ r, Soft r → Spaced A ps r) (r : List Char) : Spaced A (Piece.mark o :: ps ++ [Piece.mark e]) r := by
  show Spaced A (Piece.mark o :: (ps ++ [Piece.mark e])) r
  refine ⟨stands_bracket ho _, (spaced_append _ _ _).2 ⟨h _ ?_, stands_bracket ?_ _, trivial⟩⟩
  · rcases he with rfl | rfl
    · exact (soft_cons (by decide) _ : Soft (')' :: _))
    · exact (soft_cons (by decide) _ : Soft (']' :: _))
  · rcases he with rfl | rfl <;> decide

/-- Parentheses make room for anything. -/
theorem spaced_enclose {b : Bool} {ps : Pieces} (h : ∀ r, Follows t r → Spaced A ps r) (hr : b = false → Follows t r) :
    Spaced A (enclose b ps) r := by
  cases b with
  | true => exact spaced_bracketed (by decide) (.inl rfl) (fun _ hr => h _ (.inl hr)) r
  | false => exact h r (hr rfl)

theorem spaced_operand (h : ∀ r, Follows t r → Spaced A (pieces t c) r) (least : Nat) (hr : Soft r) :
    Spaced A (operand t least c) r :=
  spaced_enclose h fun _ => .inl hr

theorem spaced_separate {pss : List Pieces} (h : ∀ ps ∈ pss, ∀ r, Soft r → Spaced A ps r) (hr : Soft r) :
    Spaced A (separate pss) r := by
  induction pss with
  | nil => trivial
  | cons ps rest ih =>
    have hps := h ps List.mem_cons_self
    cases rest with
    | nil => exact hps r hr
    | cons qs rest =>
      have hrest := ih fun qs hqs => h qs (List.mem_cons_of_mem _ hqs)
      rw [separate]
      · rw [List.append_assoc, spaced_append]
        exact ⟨hps _ (soft_cons (by decide) _), stands_bracket (by decide) _, hrest⟩
      · simp

theorem spaced_operands {ts : List Tree} (h : ∀ t ∈ ts, ∀ r, Soft r → Spaced A (operand t Level.assign c) r) (hr : Soft r) :
    Spaced A (operands ts c) r := by
  apply spaced_separate _ hr
  intro ps hps r hr
  obtain ⟨t, ht, rfl⟩ := List.mem_map.1 hps
  exact h t ht r hr

/-- A list in parentheses. -/
theorem spaced_argumentList {ts : List Tree} (h : ∀ t ∈ ts, ∀ r, Soft r → Spaced A (operand t Level.assign c) r)
    (r : List Char) : Spaced A (argumentList ts c) r :=
  spaced_bracketed (by decide) (.inl rfl) (fun _ hr => spaced_operands h hr) r

/-- An operator between blanks. -/
theorem spaced_between {ps qs : Pieces} (hs : s.toList ∈ punctuators ∨ s ∈ keywords) (hp : ∀ r, Soft r → Spaced A ps r)
    (hq : Spaced A qs r) : Spaced A (ps ++ [.blank, .mark s, .blank] ++ qs) r := by
  rw [List.append_assoc, spaced_append]
  refine ⟨hp _ (soft_cons (by decide) _), ?_, hq⟩
  rcases hs with hs | hs
  · exact stands_blank hs _
  · exact stands_keyword hs (soft_cons (by decide) _).firm

section Operators
variable {op : String} {l r : Tree} {rest : List Char}
  (hl : ∀ r, Follows l r → Spaced A (pieces l c) r) (hr : ∀ r', Follows r r' → Spaced A (pieces r c) r')
  (hop : op.toList ∈ punctuators ∨ op ∈ keywords) (hrest : Soft rest) (hc : c.noIn = false)
include hl hr hop hrest hc

theorem spaced_binary : Spaced A (binaryPieces op l (pieces l) r (pieces r) c) rest := by
  by_cases hp : op = "**"
  · subst hp
    rw [binaryPieces_power hc]
    exact spaced_between hop (fun _ h => spaced_enclose hl fun _ => .inl h) (spaced_operand hr _ hrest)
  · rw [binaryPieces_eq hc hp]
    exact spaced_between hop (fun _ h => spaced_enclose hl fun _ => .inl h) (spaced_enclose hr fun _ => .inl hrest)

end Operators

theorem binaryOperators_text {op : String} (h : op ∈ binaryOperators) : op.toList ∈ punctuators ∨ op ∈ keywords := by
  have key : ∀ op ∈ binaryOperators, op.toList ∈ punctuators ∨ op ∈ keywords := by decide
  exact key op h

theorem logicalOperators_text {op : String} (h : op ∈ logicalOperators) : op.toList ∈ punctuators ∨ op ∈ keywords := by
  have key : ∀ op ∈ logicalOperators, op.toList ∈ punctuators ∨ op ∈ keywords := by decide
  exact key op h

theorem assignmentOperators_text {op : String} (h : op ∈ assignmentOperators) : op.toList ∈ punctuators ∨ op ∈ keywords := by
  have key : ∀ op ∈ assignmentOperators, op.toList ∈ punctuators ∨ op ∈ keywords := by decide
  exact key op h

theorem target_firm (h : isTarget t = true) : isFirm t = true := by
  obtain ⟨n⟩ := t
  unfold isTarget at h
  split at h
  next he =>
    cases he
    rfl
  next object _ _ opt he =>
    cases he
    show decide ((symbol object).base.accessed opt ≠ .property) = true
    rw [decide_eq_true_eq]
    rcases accessed_cases (symbol object) opt with h | h | h <;> rw [h] <;> nofun
  next => cases h

/-- A sign right before its operand: the same sign cannot follow, since a blank would have come first. -/
theorem stands_unary {op : String} {e : Tree} (hop : op ∈ unaryOperators) (hgap : unaryGap op e = false)
    (hb : Begins (pieces e c) e) (r : List Char) : Stands A op.toList (chars (operand e Level.unary c) ++ r) := by
  have key : ∀ op ∈ unaryOperators, op.toList.all isAsciiLetter = false → op.toList ∈ punctuators ∧
      op.toList ≠ ['?', '.'] ∧ op.toList ≠ ['.'] ∧
      (goesOn op.toList).all (fun x => x = '=' ∨ op.toList = [x] ∧ (x = '+' ∨ x = '-')) = true := by decide +kernel
  have hgap' := Bool.or_eq_false_iff.1 hgap
  obtain ⟨h1, h2, h3, h4⟩ := key op hop hgap'.1
  obtain ⟨ch, cs, he, hch⟩ := hb.operand_head Level.unary r
  rw [he]
  apply stands_punctuator h1
  rintro _ ⟨⟩
  -- after an operator in marks only `=` or the same sign would go on, and the gap keeps the sign away
  have : ch ∉ goesOn op.toList := by
    intro hin
    rcases of_decide_eq_true (List.all_eq_true.1 h4 ch hin) with rfl | ⟨hsame, hsign⟩
    · rcases hch with h | ⟨h, -⟩
      · exact absurd h (by decide)
      · exact h.plain.1 rfl
    · rcases hch with rfl | ⟨ho, hl⟩
      · rcases hsign with h | h <;> exact absurd h (by decide)
      · rcases ho.sign ch hsign rfl with hlt | hs
        · exact absurd hlt (Nat.not_lt.2 hl)
        · have hg := hgap'.2
          rw [hsame] at hg
          rcases hsign with rfl | rfl
          · exact absurd hs (Bool.eq_false_iff.1 hg)
          · exact absurd hs (Bool.eq_false_iff.1 hg)
  simp [mayPrecede, this, h2, h3]

theorem Formed.spaced_object (h : Formed A g p t) (hp : p ≠ .member) (hs : ∀ r, Follows t r → Spaced A (pieces t c) r)
    (hr : Firm r) : Spaced A (Grammar.object t c) r := by
  apply spaced_enclose hs
  intro hb
  rw [Bool.or_eq_false_iff, Bool.or_eq_false_iff, decide_eq_false_iff_not, Nat.not_lt] at hb
  exact .inr ⟨h.isFirm hp hb.2.2 hb.1, hr⟩

theorem Formed.spaced (h : Formed A g p t) (hc : c.noIn = false) :
    ∀ r, (p = .member → Soft r) → Follows t r → Spaced A (pieces t c) r := by
  -- On the form. Behind every token but the last stands a part of the form itself, which is known to be soft or firm.
  -- Only the last token meets `r`.
  induction h with
  | leaf h =>
    intro r _ hr
    rw [leaf_pieces h]
    exact ⟨by simpa using h.stands hr, trivial⟩
  | array _ ih =>
    intro r _ _
    rw [pieces_array hc]
    apply spaced_bracketed (by decide) (.inr rfl)
    exact fun r hr => spaced_operands (fun t ht r => spaced_operand (fun r => ih t ht r nofun) _) hr
  | @object g ps hps ih =>
    intro r _ _
    cases ps with
    | nil => exact ⟨stands_bracket (by decide) _, stands_bracket (by decide) _, trivial⟩
    | cons p ps =>
      rw [pieces_object hc, spaced_append, spaced_append]
      refine ⟨⟨⟨stands_bracket (by decide) _, trivial⟩, ?_⟩, stands_bracket (by decide) _, trivial⟩
      refine spaced_operands (fun t ht r hr => ?_) (soft_cons (by decide) _)
      rw [(hps t ht).operand_member]
      exact ih t ht r (fun _ => hr) (.inl hr)
  | property hk hv ih =>
    intro r hr _
    rw [pieces_property hc, key_operand hk]
    exact ⟨hk.stands (soft_cons (by decide) _), stands_bracket (by decide) _,
      spaced_operand (fun r => ih r nofun) _ (hr rfl)⟩
  | computedProperty _ _ ihk ihv =>
    intro r hr _
    rw [pieces_computed hc, List.append_assoc, spaced_append]
    refine ⟨?_, stands_bracket (by decide) _, spaced_operand (fun r => ihv r nofun) _ (hr rfl)⟩
    exact spaced_bracketed (by decide) (.inr rfl) (fun _ => spaced_operand (fun r => ihk r nofun) _) _
  | @arrow g isAsync params body hps hb ih =>
    intro r _ hr
    have hr : Soft r := hr.soft (not_firm (by decide : ¬ Level.call ≤ Level.assign))
    have hbody : ∀ r, Soft r → Spaced A (operand body Level.assign c) r :=
      fun _ => spaced_operand (fun r => ih r nofun) _
    have hparams : ∀ r, Spaced A (argumentList (params.map fun p => .mk (.identifier p)) c) r := by
      apply spaced_argumentList
      intro t ht r hr
      obtain ⟨p, hp, rfl⟩ := List.mem_map.1 ht
      obtain ⟨v, hv, -⟩ := hps p hp
      exact ⟨by simpa using stands_name_firm hv hr.firm, trivial⟩
    rw [pieces_arrow hc hb.not_block, spaced_append, spaced_append, spaced_append]
    refine ⟨⟨⟨?_, hparams _⟩, stands_blank (by decide) _, trivial⟩, ?_⟩
    · cases isAsync with
      | true => exact ⟨stands_keyword (by decide) (soft_cons (by decide) _).firm, trivial⟩
      | false => trivial
    · split
      next => exact spaced_bracketed (by decide) (.inl rfl) hbody r
      next => exact hbody r hr
  | @unary g op e hop he ih =>
    intro r _ hr
    have hr : Soft r := hr.soft (not_firm (by decide : ¬ Level.call ≤ Level.unary))
    have hs : Spaced A (operand e Level.unary c) r := spaced_operand (fun r => ih r nofun) _ hr
    rw [pieces_unary hc]
    cases hgap : unaryGap op e with
    | true =>
      have key : ∀ op ∈ unaryOperators, op.toList ∈ punctuators ∨ op ∈ keywords := by decide
      refine ⟨?_, hs⟩
      rcases key op hop with h | h
      · exact stands_blank h _
      · exact stands_keyword h (soft_cons (by decide) _).firm
    | false => exact ⟨stands_unary hop hgap (he.begins (by decide) hc) r, hs⟩
  | @update g op isPrefix e hop ht he ih =>
    intro r _ hr
    have hsoft : Soft r := hr.soft (not_firm level_of_update)
    cases isPrefix with
    | true =>
      rw [pieces_before hc]
      refine ⟨stands_update hop ?_, spaced_operand (fun r => ih r nofun) _ hsoft⟩
      obtain ⟨ch, cs, hcs, hch⟩ := (he.begins (by decide) hc).operand_head Level.unary r
      rw [hcs]
      rintro _ ⟨⟩
      rcases hch with rfl | ⟨ho, -⟩
      · decide
      · exact ho.plain.2
    | false =>
      have hne : '>' ∉ softChars := by decide
      have hfirm : Firm (chars [.mark op] ++ r) := by
        rcases (by simpa [updateOperators] using hop : op = "++" ∨ op = "--") with rfl | rfl
        · exact (firm_cons (by decide) _ : Firm ('+' :: _))
        · exact (firm_cons (by decide) _ : Firm ('-' :: _))
      rw [pieces_after hc, spaced_append]
      refine ⟨spaced_enclose (fun r => ih r nofun) fun _ => .inr ⟨target_firm ht, hfirm⟩, ?_, trivial⟩
      exact stands_update hop fun ch hch he => hne (he ▸ hsoft ch hch)
  | binary hop _ _ ihl ihr =>
    intro r _ hr
    exact spaced_binary (fun r => ihl r nofun) (fun r => ihr r nofun) (binaryOperators_text hop)
      (hr.soft (not_firm level_of_binary)) hc
  | logical hop _ _ ihl ihr =>
    intro r _ hr
    exact spaced_binary (fun r => ihl r nofun) (fun r => ihr r nofun) (logicalOperators_text hop)
      (hr.soft (not_firm level_of_logical)) hc
  | assignment hop _ _ _ ihl ihr =>
    intro r _ hr
    have hr : Soft r := hr.soft (not_firm (by decide : ¬ Level.call ≤ Level.assign))
    rw [pieces_assignment hc]
    exact spaced_between (assignmentOperators_text hop) (fun _ h => spaced_operand (fun r => ihl r nofun) _ h)
      (spaced_operand (fun r => ihr r nofun) _ hr)
  | conditional _ _ _ iht ihy ihn =>
    intro r _ hr
    have hr : Soft r := hr.soft (not_firm (by decide : ¬ Level.call ≤ Level.conditional))
    rw [pieces_conditional hc]
    refine spaced_between (.inl (by decide)) (fun r h => ?_) (spaced_operand (fun r => ihn r nofun) _ hr)
    exact spaced_between (.inl (by decide)) (fun _ h => spaced_operand (fun r => iht r nofun) _ h)
      (spaced_operand (fun r => ihy r nofun) _ h)
  | @call g p e as opt hp he _ ih iha =>
    intro r _ _
    have hargs : Spaced A (argumentList as c) r :=
      spaced_argumentList (fun t ht r => spaced_operand (fun r => iha t ht r nofun) _) r
    have hcallee : ∀ r, Soft r → Spaced A (Grammar.callee e c) r := fun r hr =>
      spaced_enclose (fun r => ih r fun h => absurd h hp) fun _ => .inl hr
    rw [pieces_call hc, spaced_append, spaced_append]
    refine ⟨?_, hargs⟩
    cases opt with
    | true =>
      refine ⟨hcallee _ (soft_cons (by decide) _ : Soft ('?' :: _)), stands_question ?_, trivial⟩
      rintro _ ⟨⟩
      decide
    | false => exact ⟨hcallee _ (soft_cons (by decide) _ : Soft ('(' :: _)), trivial⟩
  | new he _ ih iha =>
    intro r _ _
    rw [pieces_new hc, spaced_append, spaced_append]
    refine ⟨⟨⟨stands_keyword (by decide) (soft_cons (by decide) _).firm, trivial⟩, ?_⟩, ?_⟩
    · exact spaced_enclose (fun r => ih r nofun) fun _ => .inl (soft_cons (by decide) _)
    · exact spaced_argumentList (fun t ht r => spaced_operand (fun r => iha t ht r nofun) _) r
  | @member g p e name v opt hp he hn ih =>
    intro r _ hr
    rw [pieces_member hc, spaced_append]
    refine ⟨he.spaced_object hp (fun r => ih r fun h => absurd h hp) ?_, ?_, ?_, trivial⟩
    · cases opt with
      | true => exact (firm_cons (by decide) _ : Firm ('?' :: _))
      | false => exact (firm_cons (by decide) _ : Firm ('.' :: _))
    · simpa using stands_point hn opt r
    · simpa using stands_name_firm hn hr.firm
  | @index g p e i opt hp he hi ih ihi =>
    intro r _ _
    have hobject : ∀ r, Firm r → Spaced A (Grammar.object e c) r := fun r hr =>
      he.spaced_object hp (fun r => ih r fun h => absurd h hp) hr
    have hindex : Spaced A (.mark "[" :: operand i Level.sequence c ++ [.mark "]"]) r :=
      spaced_bracketed (by decide) (.inr rfl) (fun _ => spaced_operand (fun r => ihi r nofun) _) r
    rw [pieces_index hc, List.append_assoc, spaced_append, spaced_append]
    refine ⟨?_, hindex⟩
    cases opt with
    | true =>
      refine ⟨hobject _ (firm_cons (by decide) _ : Firm ('?' :: _)), stands_question ?_, trivial⟩
      rintro _ ⟨⟩
      decide
    | false => exact ⟨hobject _ (firm_cons (by decide) _ : Firm ('[' :: _)), trivial⟩
  | chain he ih =>
    intro r _ hr
    obtain ⟨h1, -, h2⟩ := he.of_chained
    exact ih r (by simp) (.inr ⟨he.isFirm (by decide) h1 h2, hr.firm⟩)
  | await _ _ ih =>
    intro r _ hr
    have hr : Soft r := hr.soft (not_firm (by decide : ¬ Level.call ≤ Level.unary))
    rw [pieces_await hc]
    exact ⟨stands_keyword (by decide) (soft_cons (by decide) _).firm, spaced_operand (fun r => ih r nofun) _ hr⟩
  | @sequence g es _ _ ih =>
    intro r _ hr
    have hr : Soft r := hr.soft (not_firm (by decide : ¬ Level.call ≤ Level.sequence))
    show Spaced A (listed es c) r
    rw [listed_eq hc]
    exact spaced_operands (fun t ht r => spaced_operand (fun r => ih t ht r nofun) _) hr

end Graft.Grammar
