import Graft.Proofs.Source.Numerals
import Graft.Proofs.Source.Quotation
/-!
# Tokens of data

Which token stands in front of a text that goes on with a numeral, a word, a key or a punctuator, and what is skipped
before it. A bare key is one word since no letter and no number is a blank (`not_isBlank`).
-/

namespace Graft.Source

open Unicode (isAsciiDigit isAsciiLetter isAlphabetic isAlphanumeric isSpaceSeparator inTable)

variable {cs w rest text : List Char} {c : Char} {n count : Nat} {d : Decimal}

/-! ## Letters and blanks -/

/-- The blanks beyond ASCII. -/
def wideBlanks : List Nat :=
  [160, 5760, 8192, 8193, 8194, 8195, 8196, 8197, 8198, 8199, 8200, 8201, 8202, 8203, 8232, 8233, 8239, 8287, 8288, 12288, 65279]

theorem mem_wideBlanks (hc : ¬ c.toNat < 128) (h : isBlank c = true) : c.toNat ∈ wideBlanks := by
  rw [isBlank, isAsciiBlank] at h
  simp only [Bool.or_eq_true, Bool.and_eq_true, decide_eq_true_eq] at h
  simp only [wideBlanks, List.mem_cons, List.not_mem_nil, or_false]
  rcases h with (rfl | h) | ⟨-, ((((h | rfl) | rfl) | rfl) | rfl) | rfl⟩
  · exact absurd (by decide) hc
  · omega
  · rw [isSpaceSeparator] at h
    generalize c.toNat = n at h hc ⊢
    simp [inTable, Unicode.countUpTo, Unicode.spaceSeparators] at h
    repeat' split at h
    all_goals omega
  all_goals decide

/-- No letter and no number is a blank. -/
theorem not_isBlank (hc : ¬ c.toNat < 128) (h : isAlphanumeric c = true) : isBlank c = false := by
  have hwide : ∀ n ∈ wideBlanks, (inTable Unicode.alphabetic n || inTable Unicode.numbers n) = false := by decide +kernel
  by_contra hb
  rw [Bool.not_eq_false] at hb
  rw [isAlphanumeric, if_neg hc, hwide c.toNat (mem_wideBlanks hc hb)] at h
  cases h

theorem name_not_blank (h : isNamePart c = true) : isBlank c = false := by
  have hascii : ∀ n < 128, isNamePart (Char.ofNat n) = true → isBlank (Char.ofNat n) = false := by decide +kernel
  by_cases hc : c.toNat < 128
  · have := hascii c.toNat hc
    rw [Char.ofNat_toNat] at this
    exact this h
  · rw [isNamePart, if_neg hc, Bool.not_eq_true'] at h
    exact h

theorem isNamePart_of_alphanumeric (h : isAlphanumeric c = true) : isNamePart c = true := by
  rw [isNamePart]
  by_cases hc : c.toNat < 128
  · rw [isAlphanumeric, if_pos hc] at h
    rw [if_pos hc, h]
    rfl
  · rw [if_neg hc, not_isBlank hc h]
    rfl

theorem isNameStart_of_alphabetic (h : isAlphabetic c = true) : isNameStart c = true := by
  rw [isAlphabetic] at h
  have hpart : isNamePart c = true := by
    refine isNamePart_of_alphanumeric ?_
    rw [isAlphanumeric]
    split at h <;> simp_all
  have hdigit : isAsciiDigit c = false := by
    by_contra hd
    rw [Bool.not_eq_false] at hd
    have hbound := isAsciiDigit_iff.1 hd
    rw [if_pos (by omega), isAsciiLetter] at h
    simp only [Bool.or_eq_true, Bool.and_eq_true, decide_eq_true_eq, Char.le_def, UInt32.le_iff_toNat_le] at h
    have h₁ : ('a' : Char).val.toNat = 97 := rfl
    have h₂ : ('A' : Char).val.toNat = 65 := rfl
    have h₃ : c.val.toNat = c.toNat := rfl
    omega
  rw [isNameStart, hpart, hdigit]
  rfl

/-! ## Words -/

/-- Characters of one word, which a name is and a keyword. -/
structure IsWord (w : List Char) : Prop where
  nonempty : w ≠ []
  start : ∀ c, w.head? = some c → isNameStart c = true
  part : ∀ c ∈ w, isNamePart c = true

theorem delimiter_not_name (h : isDelimiter c = true) : isNamePart c = false ∧ c ≠ '\\' := by
  rcases isDelimiter_iff.1 h with rfl | rfl | rfl | rfl | rfl <;> decide

theorem nameLength_cons (hslash : c ≠ '\\') : nameLength 0 count (c :: cs) =
    if (if count = 0 then isNameStart c else isNamePart c) then nameLength 0 (count + 1) cs else count := by
  rw [nameLength.eq_def]
  dsimp only
  rw [if_neg hslash]

theorem nameLength_part (hpart : ∀ c ∈ w, isNamePart c = true) (hrest : Delimited rest) (hcount : count ≠ 0) :
    nameLength 0 count (w ++ rest) = count + w.length := by
  induction w generalizing count with
  | nil =>
    obtain ⟨c, cs, rfl, hc⟩ := hrest
    obtain ⟨hname, hslash⟩ := delimiter_not_name hc
    rw [List.nil_append, nameLength_cons hslash, if_neg hcount, hname, if_neg Bool.false_ne_true]
    rfl
  | cons c w ih =>
    have hc := hpart c List.mem_cons_self
    have hslash : c ≠ '\\' := by
      rintro rfl
      exact absurd hc (by decide)
    rw [List.cons_append, nameLength_cons hslash, if_neg hcount, if_pos hc,
      ih (fun e he => hpart e (List.mem_cons_of_mem c he)) (Nat.succ_ne_zero count), List.length_cons]
    omega

/-- No punctuator begins like a name. -/
theorem punctuator?_name (hc : isNamePart c = true) : punctuator? (c :: cs) = none := by
  have hheads : (punctuators.all fun p => p.head?.any fun e => !isNamePart e) = true := by decide +kernel
  rw [punctuator?]
  · rw [List.find?_eq_none]
    intro p hp hprefix
    have hhead := List.all_eq_true.1 hheads p hp
    cases p with
    | nil => cases hhead
    | cons e q =>
      obtain ⟨rfl, -⟩ := List.cons_prefix_cons.1 (List.isPrefixOf_iff_prefix.1 hprefix)
      rw [List.head?_cons, Option.any_some, hc] at hhead
      cases hhead
  · rintro d ds h
    cases h
    exact absurd hc (by decide)

/-- A word is one token in front of a delimiter. -/
theorem nextToken_word (hw : IsWord w) (hrest : Delimited rest) : nextToken (w ++ rest) = (.word (String.ofList w), rest) := by
  obtain ⟨c, w', rfl⟩ := List.exists_cons_of_ne_nil hw.nonempty
  have hstart := hw.start c rfl
  have hc := hw.part c List.mem_cons_self
  have hdigit : isAsciiDigit c = false := by
    rw [isNameStart, Bool.and_eq_true, Bool.not_eq_true'] at hstart
    exact hstart.2
  have hne (e : Char) (he : isNamePart e = false) : c ≠ e := by
    rintro rfl
    rw [hc] at he
    cases he
  have hlength : nameLength 0 0 (c :: (w' ++ rest)) = (c :: w').length := by
    rw [nameLength_cons (hne '\\' (by decide)), if_pos rfl, if_pos hstart, nameLength_part
      (fun e he => hw.part e (List.mem_cons_of_mem c he)) hrest (Nat.succ_ne_zero 0), List.length_cons]
    omega
  rw [List.cons_append, nextToken, decide_eq_false (hne '"' (by decide)), decide_eq_false (hne '\'' (by decide)),
    if_neg (by decide), if_neg (hne '\x60' (by decide)), hdigit, decide_eq_false (hne '.' (by decide)),
    if_neg (by simp), if_neg (hne '#' (by decide)), punctuator?_name hc, hlength]
  dsimp only
  rw [cut, if_neg (by simp), ← List.cons_append, List.take_left, List.drop_left]

theorem isWord_of_identifierName {name : String} (h : isIdentifierName name = true) : IsWord name.toList := by
  rw [isIdentifierName] at h
  generalize name.toList = w at h
  cases w with
  | nil => cases h
  | cons c w =>
    simp only [Bool.and_eq_true, Bool.or_eq_true, decide_eq_true_eq, List.all_eq_true] at h
    obtain ⟨hc, hw⟩ := h
    have hstart : isNameStart c = true := by
      rcases hc with (rfl | rfl) | hc
      · decide
      · decide
      · exact isNameStart_of_alphabetic hc
    have hpart : isNamePart c = true := by
      rw [isNameStart, Bool.and_eq_true] at hstart
      exact hstart.1
    refine ⟨List.cons_ne_nil c w, ?_, List.forall_mem_cons.2 ⟨hpart, fun e he => ?_⟩⟩
    · rintro _ ⟨⟩
      exact hstart
    · rcases hw e he with (rfl | rfl) | h
      · decide
      · decide
      · exact isNamePart_of_alphanumeric h

/-! ## Numerals and marks -/

/-- A numeral is one token in front of a delimiter. -/
theorem nextToken_numeral (hd : d.WellFormed) (hrest : Delimited rest) :
    nextToken (d.text ++ rest) = (.number (String.ofList d.text), rest) := by
  obtain ⟨c, cs, htext, hc⟩ := Decimal.head_digit hd
  have hlength := Decimal.numberLength_text hd hrest
  have hpos : d.text.length ≠ 0 := by simp [htext]
  have hquote : (c = '"' || c = '\'' : Bool) = false ∧ c ≠ '\x60' := by
    have := forall_digit (q := fun c => !(c = '"' || c = '\'') && c ≠ '\x60') (by decide) hc
    rwa [Bool.and_eq_true, Bool.not_eq_true', decide_eq_true_eq] at this
  have htoken : nextToken (d.text ++ rest) = cut .number (numberLength (d.text ++ rest)) (d.text ++ rest) := by
    rw [htext, List.cons_append, nextToken, hquote.1, if_neg Bool.false_ne_true, if_neg hquote.2, hc, Bool.true_or, if_pos rfl]
  rw [htoken, hlength, cut, if_neg hpos, List.take_left, List.drop_left]

/-- A minus sign in front of a digit. -/
theorem nextToken_minus (hc : isAsciiDigit c = true) : nextToken ('-' :: c :: cs) = (.punct "-", c :: cs) := by
  have := mem_digits hc
  simp only [List.mem_cons, List.not_mem_nil, or_false] at this
  rcases this with rfl | rfl | rfl | rfl | rfl | rfl | rfl | rfl | rfl | rfl <;> rfl

/-- The marks that are no part of a longer one. -/
def marks : List Char := ['(', ')', '[', ']', '\x7b', '\x7d', ',', ':']

theorem nextToken_mark (hc : c ∈ marks) : nextToken (c :: cs) = (.punct (String.ofList [c]), cs) := by
  simp only [marks, List.mem_cons, List.not_mem_nil, or_false] at hc
  rcases hc with rfl | rfl | rfl | rfl | rfl | rfl | rfl | rfl <;> rfl

/-! ## Blanks in front -/

/-- Skipping blanks and comments leads from one text to another. -/
def SkipsTo (cs text : List Char) : Prop := ∀ markup, skipGap markup cs = text

/-- The characters that a comment can begin with. -/
def beginsComment (c : Char) : Bool := c = '/' || c = '<' || c = '-'

theorem not_beginsComment {q : Char → Bool} (hc : q c = true) (hq : (q '/' || q '<' || q '-') = false) :
    beginsComment c = false := by
  by_contra hbegins
  rw [Bool.not_eq_false, beginsComment] at hbegins
  simp only [Bool.or_eq_true, decide_eq_true_eq] at hbegins
  rcases hbegins with (rfl | rfl) | rfl <;> simp [hc] at hq

theorem skip_cons {markup m : Bool} {start : List Char} (hc : beginsComment c = false) :
    skip markup (.code m) start (c :: cs) =
      if isBlank c then skip markup (.code (m && (isAsciiBlank c || isLineBreak c))) [] cs else c :: cs := by
  rw [beginsComment, Bool.or_eq_false_iff, Bool.or_eq_false_iff] at hc
  simp only [decide_eq_false_iff_not] at hc
  obtain ⟨⟨h₁, h₂⟩, h₃⟩ := hc
  rw [skip] <;> simp [h₁, h₂, h₃]

/-- Nothing is skipped in front of a character that begins no gap. -/
theorem skipsTo_refl (hc : (!isBlank c && !beginsComment c) = true) : SkipsTo (c :: cs) (c :: cs) := by
  intro markup
  rw [Bool.and_eq_true, Bool.not_eq_true', Bool.not_eq_true'] at hc
  rw [skipGap, skip_cons hc.2, hc.1, if_neg Bool.false_ne_true]

theorem skipsTo_minus (hc : isAsciiDigit c = true) : SkipsTo ('-' :: c :: cs) ('-' :: c :: cs) := by
  intro markup
  have hne : c ≠ '-' := by
    rintro rfl
    cases hc
  rw [skipGap, skip, if_neg (by decide)]
  all_goals simp [hne]

/-- A blank or a line break in front makes no difference. -/
theorem skipsTo_cons (hc : isAsciiBlank c = true) (h : SkipsTo cs text) : SkipsTo (c :: cs) text := by
  intro markup
  have hblank : isBlank c = true := by
    rw [isBlank, hc]
    rfl
  have hcomment := not_beginsComment (q := isAsciiBlank) hc (by decide)
  rw [skipGap, skip_cons hcomment, if_pos hblank, hc, Bool.true_or, Bool.and_true]
  exact h markup

theorem skipsTo_mark (hc : c ∈ marks) : SkipsTo (c :: cs) (c :: cs) := by
  have hmarks : (marks.all fun c => !isBlank c && !beginsComment c) = true := by decide
  exact skipsTo_refl (List.all_eq_true.1 hmarks c hc)

theorem skipsTo_digit (hc : isAsciiDigit c = true) : SkipsTo (c :: cs) (c :: cs) :=
  skipsTo_refl (forall_digit (q := fun c => !isBlank c && !beginsComment c) (by decide) hc)

theorem skipsTo_quote (s : String) : SkipsTo ((Json.quote s).toList ++ rest) ((Json.quote s).toList ++ rest) := by
  rw [toList_quote]
  exact skipsTo_refl (by decide)

theorem skipsTo_word (hw : IsWord w) : SkipsTo (w ++ rest) (w ++ rest) := by
  obtain ⟨c, w', rfl⟩ := List.exists_cons_of_ne_nil hw.nonempty
  have hc := hw.part c List.mem_cons_self
  have hcomment := not_beginsComment (q := isNamePart) hc (by decide)
  refine skipsTo_refl ?_
  rw [name_not_blank hc, hcomment]
  rfl

end Graft.Source
