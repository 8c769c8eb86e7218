import Mathlib.Data.Char
import Mathlib.Data.List.Basic
import Graft.Source.Character
/-!
# Lexemes

The lexical grammar of ECMAScript, on lists of characters: names, punctuators, numeric and string literals. Regular
expressions, templates and private names are left out; none of them starts with a character that another token starts
with, apart from the slash, which after an operand divides.

Which characters names are made of is a question to the Unicode tables of the day, so an `Alphabet` only settles the
printable ASCII characters.
-/

namespace Graft.Lexical

open Unicode (isAsciiLetter isAsciiDigit)
open Source (hexValue? isHexDigit isOctalDigit)

structure Alphabet where
  start : Char → Bool
  part : Char → Bool
  part_of_start : ∀ c, start c = true → part c = true
  ascii_start : ∀ c, ' ' ≤ c → c ≤ '~' → start c = (isAsciiLetter c || c = '$' || c = '_')
  ascii_part : ∀ c, ' ' ≤ c → c ≤ '~' → part c = (isAsciiLetter c || isAsciiDigit c || c = '$' || c = '_')

theorem digit_not_letter {c : Char} (h : isAsciiDigit c = true) : (isAsciiLetter c || c = '$' || c = '_') = false := by
  simp only [isAsciiDigit, Bool.and_eq_true, decide_eq_true_eq] at h
  have ha : ¬ 'a' ≤ c := fun ha => absurd (le_trans ha h.2) (by decide)
  have hA : ¬ 'A' ≤ c := fun hA => absurd (le_trans hA h.2) (by decide)
  have hd : c ≠ '$' := by
    rintro rfl
    exact absurd h.1 (by decide)
  have hu : c ≠ '_' := by
    rintro rfl
    exact absurd h.2 (by decide)
  simp [isAsciiLetter, ha, hA, hd, hu]

theorem isNamePart_ascii {c : Char} (h : c ≤ '~') :
    Source.isNamePart c = (isAsciiLetter c || isAsciiDigit c || c = '$' || c = '_') := by
  have hc : c.toNat ≤ 126 := h
  have hne : c.toNat ≠ 127 := by omega
  rw [Source.isNamePart, if_pos (by omega), decide_eq_false hne, Bool.or_false]

/-- The alphabet of the reader of sources. -/
def Alphabet.reader : Alphabet where
  start := Source.isNameStart
  part := Source.isNamePart
  part_of_start := by
    intro c h
    rw [Source.isNameStart, Bool.and_eq_true] at h
    exact h.1
  ascii_start := by
    intro c _ h
    rw [Source.isNameStart, isNamePart_ascii h]
    cases hd : isAsciiDigit c with
    | false => simp
    | true => rw [Bool.not_true, Bool.and_false, digit_not_letter hd]
  ascii_part := fun _ _ => isNamePart_ascii

/-! ## Escapes and names -/

def hexCode (ds : List Char) : Nat := ds.foldl (fun n d => 16 * n + (hexValue? d).getD 0) 0

/-- What follows the backslash of a Unicode escape, and its code point. -/
inductive CodeEscape : List Char → Nat → Prop
  | unit {ds : List Char} : ds.length = 4 → (∀ d ∈ ds, isHexDigit d = true) → CodeEscape ('u' :: ds) (hexCode ds)
  | braced {ds : List Char} : ds ≠ [] → (∀ d ∈ ds, isHexDigit d = true) → hexCode ds ≤ 0x10FFFF →
    CodeEscape ('u' :: '\x7b' :: ds ++ ['\x7d']) (hexCode ds)

/-- A spelling of the characters of a name. -/
inductive Spells (A : Alphabet) : List Char → List Char → Prop
  | done : Spells A [] []
  | char {c : Char} {cs v : List Char} : A.part c = true → Spells A cs v → Spells A (c :: cs) (c :: v)
  | escape {e cs v : List Char} {code : Nat} : CodeEscape e code → A.part (Char.ofNat code) = true → Spells A cs v →
    Spells A ('\\' :: e ++ cs) (Char.ofNat code :: v)

/-- A name, `v` without its escapes. -/
def IsName (A : Alphabet) (w v : List Char) : Prop := Spells A w v ∧ ∃ c ∈ v.head?, A.start c = true

/-! ## Strings -/

/-- What may follow a backslash in a string; of a legacy octal escape, the first digit. -/
inductive Escape : List Char → Prop
  | single {c : Char} : c ≠ 'x' → c ≠ 'u' → Escape [c]
  | lineBreak : Escape ['\r', '\n']
  | byte {ds : List Char} : ds.length = 2 → (∀ d ∈ ds, isHexDigit d = true) → Escape ('x' :: ds)
  | code {e : List Char} {code : Nat} : CodeEscape e code → Escape e

inductive Quotable (quote : Char) : List Char → Prop
  | done : Quotable quote []
  | char {c : Char} {cs : List Char} : c ≠ quote → c ≠ '\\' → c ≠ '\n' → c ≠ '\r' → Quotable quote cs →
    Quotable quote (c :: cs)
  | escape {e cs : List Char} : Escape e → Quotable quote cs → Quotable quote ('\\' :: e ++ cs)

def isQuote (c : Char) : Bool := c = '"' || c = '\''

def IsString (w : List Char) : Prop := ∃ quote body, isQuote quote = true ∧ Quotable quote body ∧ w = quote :: body ++ [quote]

/-! ## Numbers -/

/-- Digits, with single underscores in between. -/
def areDigits (digit : Char → Bool) : List Char → Bool
  | [] => false
  | [d] => digit d
  | d :: '_' :: rest => digit d && areDigits digit rest
  | d :: rest => digit d && areDigits digit rest

/-- The digits before a point; a leading zero stands alone, or before plain digits that cannot all be octal. -/
def IsWhole (w : List Char) : Prop :=
  w = ['0'] ∨ areDigits isAsciiDigit w = true ∧ w.head? ≠ some '0' ∨
    w.head? = some '0' ∧ w.all isAsciiDigit = true ∧ w.all isOctalDigit = false

def IsExponent (w : List Char) : Prop :=
  w = [] ∨ ∃ e ∈ ['e', 'E'], ∃ sign ∈ [[], ['+'], ['-']], ∃ ds, areDigits isAsciiDigit ds = true ∧ w = e :: sign ++ ds

def isBinaryDigit (c : Char) : Bool := c = '0' || c = '1'

def radixes : List (Char × (Char → Bool)) :=
  [('b', isBinaryDigit), ('B', isBinaryDigit), ('o', isOctalDigit), ('O', isOctalDigit), ('x', isHexDigit), ('X', isHexDigit)]

inductive IsNumeral : List Char → Prop
  | whole {w e : List Char} : IsWhole w → IsExponent e → IsNumeral (w ++ e)
  | point {w f e : List Char} : IsWhole w → f = [] ∨ areDigits isAsciiDigit f = true → IsExponent e →
    IsNumeral (w ++ '.' :: f ++ e)
  | fraction {f e : List Char} : areDigits isAsciiDigit f = true → IsExponent e → IsNumeral ('.' :: f ++ e)
  | radix {x : Char} {digit : Char → Bool} {ds n : List Char} : (x, digit) ∈ radixes → areDigits digit ds = true →
    n = [] ∨ n = ['n'] → IsNumeral ('0' :: x :: ds ++ n)
  | big {w : List Char} : w = ['0'] ∨ areDigits isAsciiDigit w = true ∧ w.head? ≠ some '0' → IsNumeral (w ++ ['n'])
  | octal {ds : List Char} : ds ≠ [] → ds.all isOctalDigit = true → IsNumeral ('0' :: ds)

/-! ## Punctuators and tokens -/

def punctuators : List (List Char) :=
  ["\x7b", "\x7d", "(", ")", "[", "]", ".", "...", ";", ",", "<", ">", "<=", ">=", "==", "!=", "===", "!==", "+", "-", "*",
   "/", "%", "**", "++", "--", "<<", ">>", ">>>", "&", "|", "^", "!", "~", "&&", "||", "??", "?", "?.", ":", "=", "+=", "-=",
   "*=", "/=", "%=", "**=", "<<=", ">>=", ">>>=", "&=", "|=", "^=", "&&=", "||=", "??=", "=>"].map String.toList

def IsToken (A : Alphabet) (w : List Char) : Prop :=
  (∃ v, IsName A w v) ∨ IsNumeral w ∨ IsString w ∨ w ∈ punctuators

/-- What may come after a token: neither a name nor a digit right after a number, and no digit after `?.`. -/
def Admits (A : Alphabet) (w r : List Char) : Prop :=
  (IsNumeral w → ∀ c ∈ r.head?, A.start c = false ∧ isAsciiDigit c = false ∧ c ≠ '\\') ∧
    (w = ['?', '.'] → ∀ c ∈ r.head?, isAsciiDigit c = false)

/-- A token at the front of a text, `r` being what comes after it. -/
structure TokenAt (A : Alphabet) (w r : List Char) : Prop where
  token : IsToken A w
  admits : Admits A w r

/-! ## The characters of a token -/

def isNameChar (A : Alphabet) (c : Char) : Bool := A.part c || c = '\\' || c = '\x7b' || c = '\x7d'

def isNumeralChar (c : Char) : Bool :=
  isAsciiLetter c || isAsciiDigit c || c = '_' || c = '.' || c = '+' || c = '-'

def isMark (c : Char) : Bool := c ∈ "\x7b\x7d()[].;,<>=!+-*/%&|^~?:".toList

theorem ascii_of_isMark {c : Char} (h : isMark c = true) :
    ' ' ≤ c ∧ c ≤ '~' ∧ c ≠ '\\' ∧ isQuote c = false ∧ isAsciiDigit c = false ∧
      (isAsciiLetter c || c = '$' || c = '_') = false := by
  have key : "\x7b\x7d()[].;,<>=!+-*/%&|^~?:".toList.all (fun c => ' ' ≤ c && c ≤ '~' && c ≠ '\\' && !isQuote c &&
      !isAsciiDigit c && !(isAsciiLetter c || c = '$' || c = '_')) = true := by decide
  have hc := List.all_eq_true.1 key c (of_decide_eq_true h)
  simpa [and_assoc] using hc

theorem hexDigit_word {d : Char} (h : isHexDigit d = true) : (isAsciiLetter d || isAsciiDigit d) = true := by
  unfold isHexDigit hexValue? at h
  unfold isAsciiLetter isAsciiDigit
  split at h
  next hd => simp [hd]
  next =>
    split at h
    next ha => simp [ha.1, le_trans ha.2 (show 'f' ≤ 'z' by decide)]
    next =>
      split at h
      next hA => simp [hA.1, le_trans hA.2 (show 'F' ≤ 'Z' by decide)]
      next => simp at h

section Chars
variable {A : Alphabet}

theorem word_nameChar {d : Char} (h : (isAsciiLetter d || isAsciiDigit d) = true) : isNameChar A d = true := by
  have hl : ' ' ≤ d ∧ d ≤ '~' := by
    simp only [isAsciiLetter, isAsciiDigit, Bool.or_eq_true, Bool.and_eq_true, decide_eq_true_eq] at h
    rcases h with (⟨h1, h2⟩ | ⟨h1, h2⟩) | ⟨h1, h2⟩
    · exact ⟨le_trans (by decide) h1, le_trans h2 (by decide)⟩
    · exact ⟨le_trans (by decide) h1, le_trans h2 (by decide)⟩
    · exact ⟨le_trans (by decide) h1, le_trans h2 (by decide)⟩
  simp [isNameChar, A.ascii_part d hl.1 hl.2, h]

theorem CodeEscape.chars {e : List Char} {code : Nat} (h : CodeEscape e code) : ∀ c ∈ e, isNameChar A c = true := by
  have hu : isNameChar A 'u' = true := word_nameChar (by decide)
  cases h with
  | unit _ hd =>
    intro c hc
    rcases List.mem_cons.1 hc with rfl | hc
    · exact hu
    · exact word_nameChar (hexDigit_word (hd c hc))
  | braced _ hd _ =>
    intro c hc
    simp only [List.cons_append, List.mem_cons, List.mem_append, List.not_mem_nil, or_false] at hc
    rcases hc with rfl | rfl | hc | rfl
    · exact hu
    · simp [isNameChar]
    · exact word_nameChar (hexDigit_word (hd c hc))
    · simp [isNameChar]

theorem Spells.chars {w v : List Char} (h : Spells A w v) : ∀ c ∈ w, isNameChar A c = true := by
  induction h with
  | done => simp
  | char hp _ ih =>
    intro c hc
    rcases List.mem_cons.1 hc with rfl | hc
    · simp [isNameChar, hp]
    · exact ih c hc
  | escape he _ _ ih =>
    intro c hc
    simp only [List.cons_append, List.mem_cons, List.mem_append] at hc
    rcases hc with rfl | hc | hc
    · simp [isNameChar]
    · exact he.chars c hc
    · exact ih c hc

theorem IsName.head {w v : List Char} (h : IsName A w v) : ∃ c cs, w = c :: cs ∧ (A.start c = true ∨ c = '\\') := by
  obtain ⟨hs, c, hc, hst⟩ := h
  cases hs with
  | done => simp at hc
  | char _ _ =>
    obtain rfl : _ = c := by simpa using hc
    exact ⟨_, _, rfl, .inl hst⟩
  | escape _ _ _ => exact ⟨_, _, rfl, .inr rfl⟩

/-! ## The characters of a numeral -/

theorem areDigits_chars {digit : Char → Bool} {ds : List Char} (h : areDigits digit ds = true) :
    ∀ d ∈ ds, digit d = true ∨ d = '_' := by
  fun_induction areDigits digit ds with
  | case1 => simp at h
  | case2 d => exact fun c hc => .inl (by rw [List.mem_singleton.1 hc]; exact h)
  | case3 d rest ih =>
    obtain ⟨hd, hr⟩ := Bool.and_eq_true_iff.1 h
    intro c hc
    rcases List.mem_cons.1 hc with rfl | hc
    · exact .inl hd
    rcases List.mem_cons.1 hc with rfl | hc
    · exact .inr rfl
    · exact ih hr c hc
  | case4 d rest _ _ ih =>
    obtain ⟨hd, hr⟩ := Bool.and_eq_true_iff.1 h
    intro c hc
    rcases List.mem_cons.1 hc with rfl | hc
    · exact .inl hd
    · exact ih hr c hc

theorem areDigits_head {digit : Char → Bool} {ds : List Char} (h : areDigits digit ds = true) :
    ∃ d rest, ds = d :: rest ∧ digit d = true := by
  fun_cases areDigits digit ds with
  | case1 => simp [areDigits] at h
  | case2 d => exact ⟨d, [], rfl, by simpa [areDigits] using h⟩
  | case3 d rest => exact ⟨d, _, rfl, by simp [areDigits] at h; exact h.1⟩
  | case4 d rest h1 h2 =>
    refine ⟨d, rest, rfl, ?_⟩
    rw [areDigits] at h
    · exact (Bool.and_eq_true_iff.1 h).1
    · exact h1
    · exact h2

theorem numeralChar_of_digit {digit : Char → Bool} (hd : ∀ c, digit c = true → isHexDigit c = true) {ds : List Char}
    (h : areDigits digit ds = true) : ∀ c ∈ ds, isNumeralChar c = true := by
  intro c hc
  rcases areDigits_chars h c hc with h | rfl
  · have := hexDigit_word (hd c h)
    simp only [Bool.or_eq_true] at this
    simp [isNumeralChar, this]
  · decide

theorem decimal_hex {c : Char} (h : isAsciiDigit c = true) : isHexDigit c = true := by
  simp only [isAsciiDigit, Bool.and_eq_true, decide_eq_true_eq] at h
  simp [isHexDigit, hexValue?, h]

theorem octal_decimal {c : Char} (h : isOctalDigit c = true) : isAsciiDigit c = true := by
  simp only [isOctalDigit, Bool.and_eq_true, decide_eq_true_eq] at h
  simp [isAsciiDigit, h.1, le_trans h.2 (show '7' ≤ '9' by decide)]

theorem radixes_hex {x : Char} {digit : Char → Bool} (h : (x, digit) ∈ radixes) :
    isNumeralChar x = true ∧ ∀ c, digit c = true → isHexDigit c = true := by
  have hb : ∀ c, isBinaryDigit c = true → isHexDigit c = true := by
    intro c hc
    simp only [isBinaryDigit, Bool.or_eq_true, decide_eq_true_eq] at hc
    rcases hc with rfl | rfl <;> decide
  have ho : ∀ c, isOctalDigit c = true → isHexDigit c = true := fun c hc => decimal_hex (octal_decimal hc)
  simp only [radixes, List.mem_cons, Prod.mk.injEq, List.not_mem_nil, or_false] at h
  rcases h with ⟨rfl, rfl⟩ | ⟨rfl, rfl⟩ | ⟨rfl, rfl⟩ | ⟨rfl, rfl⟩ | ⟨rfl, rfl⟩ | ⟨rfl, rfl⟩
  · exact ⟨by decide, hb⟩
  · exact ⟨by decide, hb⟩
  · exact ⟨by decide, ho⟩
  · exact ⟨by decide, ho⟩
  · exact ⟨by decide, fun _ h => h⟩
  · exact ⟨by decide, fun _ h => h⟩

theorem numeralChar_of_all {w : List Char} (h : w.all isAsciiDigit = true) : ∀ c ∈ w, isNumeralChar c = true := by
  intro c hc
  have := List.all_eq_true.1 h c hc
  simp [isNumeralChar, this]

theorem IsWhole.chars {w : List Char} (h : IsWhole w) : ∀ c ∈ w, isNumeralChar c = true := by
  rcases h with rfl | ⟨h, -⟩ | ⟨-, h, -⟩
  · intro c hc
    rw [List.mem_singleton.1 hc]
    rfl
  · exact numeralChar_of_digit (fun _ => decimal_hex) h
  · exact numeralChar_of_all h

theorem IsWhole.head {w : List Char} (h : IsWhole w) : ∃ d rest, w = d :: rest ∧ isAsciiDigit d = true := by
  rcases h with rfl | ⟨h, -⟩ | ⟨h, hd, -⟩
  · exact ⟨'0', [], rfl, by decide⟩
  · exact areDigits_head h
  · cases w with
    | nil => simp at h
    | cons d rest => exact ⟨d, rest, rfl, (List.all_eq_true.1 hd) d List.mem_cons_self⟩

theorem IsExponent.chars {w : List Char} (h : IsExponent w) : ∀ c ∈ w, isNumeralChar c = true := by
  rcases h with rfl | ⟨e, he, sign, hs, ds, hds, rfl⟩
  · simp
  · intro c hc
    simp only [List.cons_append, List.mem_cons, List.mem_append] at hc
    rcases hc with rfl | hc | hc
    · simp only [List.mem_cons, List.not_mem_nil, or_false] at he
      rcases he with rfl | rfl <;> rfl
    · simp only [List.mem_cons, List.not_mem_nil, or_false] at hs
      rcases hs with rfl | rfl | rfl
      · simp at hc
      · rw [List.mem_singleton.1 hc]; decide
      · rw [List.mem_singleton.1 hc]; decide
    · exact numeralChar_of_digit (fun _ => decimal_hex) hds c hc

theorem IsNumeral.chars {w : List Char} (h : IsNumeral w) : ∀ c ∈ w, isNumeralChar c = true := by
  have hdot : isNumeralChar '.' = true := by decide
  have hn : isNumeralChar 'n' = true := by decide
  have h0 : isNumeralChar '0' = true := by decide
  intro c hc
  cases h with
  | whole hw he =>
    rcases List.mem_append.1 hc with hc | hc
    · exact hw.chars c hc
    · exact he.chars c hc
  | point hw hf he =>
    simp only [List.append_assoc, List.cons_append, List.mem_append, List.mem_cons] at hc
    rcases hc with hc | rfl | hc | hc
    · exact hw.chars c hc
    · exact hdot
    · rcases hf with rfl | hf
      · simp at hc
      · exact numeralChar_of_digit (fun _ => decimal_hex) hf c hc
    · exact he.chars c hc
  | fraction hf he =>
    simp only [List.cons_append, List.mem_append, List.mem_cons] at hc
    rcases hc with rfl | hc | hc
    · exact hdot
    · exact numeralChar_of_digit (fun _ => decimal_hex) hf c hc
    · exact he.chars c hc
  | radix hr hds hb =>
    simp only [List.cons_append, List.mem_append, List.mem_cons] at hc
    rcases hc with rfl | rfl | hc | hc
    · exact h0
    · exact (radixes_hex hr).1
    · exact numeralChar_of_digit (radixes_hex hr).2 hds c hc
    · rcases hb with rfl | rfl
      · simp at hc
      · rw [List.mem_singleton.1 hc]; exact hn
  | big hw =>
    rcases List.mem_append.1 hc with hc | hc
    · rcases hw with rfl | ⟨hw, -⟩
      · rw [List.mem_singleton.1 hc]; exact h0
      · exact numeralChar_of_digit (fun _ => decimal_hex) hw c hc
    · rw [List.mem_singleton.1 hc]; exact hn
  | octal _ hd =>
    rcases List.mem_cons.1 hc with rfl | hc
    · exact h0
    · have := octal_decimal (List.all_eq_true.1 hd c hc)
      simp [isNumeralChar, this]

/-- A numeral starts with a digit, perhaps after a point. -/
theorem IsNumeral.head {w : List Char} (h : IsNumeral w) :
    ∃ c cs, w = c :: cs ∧ (isAsciiDigit c = true ∨ c = '.' ∧ ∃ d ds, cs = d :: ds ∧ isAsciiDigit d = true) := by
  have h0 : isAsciiDigit '0' = true := by decide
  cases h with
  | whole hw _ =>
    obtain ⟨d, rest, rfl, hd⟩ := hw.head
    exact ⟨d, _, rfl, .inl hd⟩
  | point hw _ _ =>
    obtain ⟨d, rest, rfl, hd⟩ := hw.head
    exact ⟨d, _, rfl, .inl hd⟩
  | fraction hf _ =>
    obtain ⟨d, rest, rfl, hd⟩ := areDigits_head hf
    exact ⟨'.', _, rfl, .inr ⟨rfl, d, _, rfl, hd⟩⟩
  | radix _ _ _ => exact ⟨'0', _, rfl, .inl h0⟩
  | big hw =>
    rcases hw with rfl | ⟨hw, -⟩
    · exact ⟨'0', _, rfl, .inl h0⟩
    · obtain ⟨d, rest, rfl, hd⟩ := areDigits_head hw
      exact ⟨d, _, rfl, .inl hd⟩
  | octal _ _ => exact ⟨'0', _, rfl, .inl h0⟩

end Chars

/-! ## The end of a string -/

/-- The text after the quote that closes a string. -/
def afterQuote (quote : Char) : Bool → List Char → Option (List Char)
  | _, [] => none
  | true, _ :: rest => afterQuote quote false rest
  | false, c :: rest =>
    if c = '\\' then afterQuote quote true rest
    else if c = quote then some rest
    else afterQuote quote false rest

variable {quote : Char}

theorem afterQuote_escape (c : Char) (rest : List Char) :
    afterQuote quote false ('\\' :: c :: rest) = afterQuote quote false rest := by
  simp [afterQuote]

theorem afterQuote_skip {more x : List Char} (h : ∀ d ∈ more, d ≠ '\\' ∧ isQuote d = false) (hq : isQuote quote = true) :
    afterQuote quote false (more ++ x) = afterQuote quote false x := by
  induction more with
  | nil => rfl
  | cons d more ih =>
    obtain ⟨hb, hd⟩ := h d List.mem_cons_self
    have hne : d ≠ quote := by
      rintro rfl
      simp [hq] at hd
    rw [List.cons_append, afterQuote, if_neg hb, if_neg hne]
    exact ih fun c hc => h c (List.mem_cons_of_mem _ hc)

theorem hexDigit_plain {d : Char} (h : isHexDigit d = true) : d ≠ '\\' ∧ isQuote d = false := by
  constructor
  · rintro rfl
    revert h; decide
  · rw [isQuote, Bool.or_eq_false_iff, decide_eq_false_iff_not, decide_eq_false_iff_not]
    constructor
    · rintro rfl
      revert h; decide
    · rintro rfl
      revert h; decide

theorem CodeEscape.tail {e : List Char} {code : Nat} (h : CodeEscape e code) :
    ∃ c more, e = c :: more ∧ ∀ d ∈ more, d ≠ '\\' ∧ isQuote d = false := by
  cases h with
  | unit _ hd => exact ⟨_, _, rfl, fun d h => hexDigit_plain (hd d h)⟩
  | @braced ds _ hd _ =>
    refine ⟨'u', '\x7b' :: ds ++ ['\x7d'], rfl, fun d h => ?_⟩
    simp only [List.cons_append, List.mem_cons, List.mem_append, List.not_mem_nil, or_false] at h
    rcases h with rfl | h | rfl
    · decide
    · exact hexDigit_plain (hd d h)
    · decide

theorem Escape.tail {e : List Char} (h : Escape e) :
    ∃ c more, e = c :: more ∧ ∀ d ∈ more, d ≠ '\\' ∧ isQuote d = false := by
  cases h with
  | single _ _ => exact ⟨_, [], rfl, by simp⟩
  | lineBreak => exact ⟨_, ['\n'], rfl, fun d hd => by rw [List.mem_singleton.1 hd]; decide⟩
  | byte _ hd => exact ⟨_, _, rfl, fun d h => hexDigit_plain (hd d h)⟩
  | code h => exact h.tail

theorem Quotable.afterQuote {body : List Char} (h : Quotable quote body) (hq : isQuote quote = true) (r : List Char) :
    afterQuote quote false (body ++ quote :: r) = some r := by
  have hne : quote ≠ '\\' := by
    rintro rfl
    revert hq; decide
  induction h with
  | done => rw [List.nil_append, Lexical.afterQuote, if_neg hne, if_pos rfl]
  | char h1 h2 _ _ _ ih => rw [List.cons_append, Lexical.afterQuote, if_neg h2, if_neg h1, ih]
  | escape he _ ih =>
    obtain ⟨c, more, rfl, hm⟩ := he.tail
    rw [List.cons_append, List.cons_append, List.cons_append, List.cons_append, afterQuote_escape, List.append_assoc, afterQuote_skip hm hq,
      ih]

/-- What comes after a string is settled by its first character. -/
theorem IsString.rest_unique {w w' r r' : List Char} (h : IsString w) (h' : IsString w') (he : w ++ r = w' ++ r') : r = r' := by
  obtain ⟨q, body, hq, hb, rfl⟩ := h
  obtain ⟨q', body', hq', hb', rfl⟩ := h'
  simp only [List.cons_append, List.append_assoc, List.nil_append, List.cons.injEq] at he
  obtain ⟨rfl, he⟩ := he
  have := hb.afterQuote hq r
  rw [he, hb'.afterQuote hq r'] at this
  exact (Option.some.inj this).symm

end Graft.Lexical
