import Graft.Proofs.Number.Decimal
import Graft.Source.Literal
import Graft.Source.Token
/-!
# Numerals in source text

A numeral in front of a delimiter is taken as a number to its end (`Decimal.numberLength_text`), and the number is decoded
as the double nearest to it (`Decimal.decodeNumber?_text`).
-/

namespace Graft

open Unicode (isAsciiDigit)
open Decimal (AreDigits fractionText exponentText)

variable {cs ds rest : List Char} {c : Char} {n : Nat} {d : Decimal}

/-! ## Runs of digits -/

namespace Source

/-- The characters behind a value or a key. -/
def isDelimiter (c : Char) : Bool := [',', ':', ']', ' ', '\n'].contains c

/-- A text that goes on with a delimiter. -/
def Delimited (rest : List Char) : Prop := ∃ c cs, rest = c :: cs ∧ isDelimiter c = true

theorem isDelimiter_iff : isDelimiter c = true ↔ c = ',' ∨ c = ':' ∨ c = ']' ∨ c = ' ' ∨ c = '\n' := by
  simp [isDelimiter]

/-- A text in front of which a run of digits ends. -/
def EndsDigits (rest : List Char) : Prop := ∀ c, rest.head? = some c → isAsciiDigit c = false ∧ c ≠ '_'

theorem Delimited.endsDigits (h : Delimited rest) : EndsDigits rest := by
  obtain ⟨c, cs, rfl, hc⟩ := h
  rintro _ ⟨⟩
  rcases isDelimiter_iff.1 hc with rfl | rfl | rfl | rfl | rfl <;> decide

theorem ne_underscore (hc : isAsciiDigit c = true) : c ≠ '_' := by
  rintro rfl
  exact absurd hc (by decide)

theorem moreDigits (hds : ∀ c ∈ ds, isAsciiDigit c = true) (hrest : EndsDigits rest) (n : Nat) :
    digitsLength.more isAsciiDigit (ds ++ rest) n = n + ds.length := by
  induction ds generalizing n with
  | nil =>
    rw [List.nil_append, List.length_nil]
    unfold digitsLength.more
    split
    next => exact absurd rfl (hrest '_' rfl).2
    next c _ _ => rw [(hrest c rfl).1, if_neg Bool.false_ne_true, Nat.add_zero]
    next => rfl
  | cons c ds ih =>
    have hc := hds c List.mem_cons_self
    rw [List.cons_append, digitsLength.more, if_pos hc, ih fun e he => hds e (List.mem_cons_of_mem c he), List.length_cons]
    · omega
    · rintro e es rfl
      exact fun _ => ne_underscore hc rfl

theorem decimalLength_digits (hds : AreDigits ds) (hrest : EndsDigits rest) : decimalLength (ds ++ rest) = ds.length := by
  obtain ⟨hne, hall⟩ := hds
  cases ds with
  | nil => exact absurd rfl hne
  | cons c ds =>
    rw [decimalLength, List.cons_append, digitsLength, if_pos (hall c List.mem_cons_self),
      moreDigits (fun e he => hall e (List.mem_cons_of_mem c he)) hrest, List.length_cons, Nat.add_comm]

theorem takeWhile_digits (hds : ∀ c ∈ ds, isAsciiDigit c = true) (hrest : EndsDigits rest) :
    (ds ++ rest).takeWhile isAsciiDigit = ds ∧ (ds ++ rest).dropWhile isAsciiDigit = rest := by
  rw [List.takeWhile_append_of_pos hds, List.dropWhile_append_of_pos hds]
  cases rest with
  | nil => simp
  | cons c rest => simp [(hrest c rfl).1]

end Source

namespace Decimal

open Source

/-! ## The parts of a numeral -/

theorem exponentText_ends (hrest : EndsDigits rest) (exponent : Option (Bool × List Char)) :
    EndsDigits (exponentText exponent ++ rest) := by
  rcases exponent with _ | ⟨minus, digits⟩
  · exact hrest
  · rintro _ ⟨⟩
    decide

theorem fractionText_ends (hrest : EndsDigits rest) (fraction : Option (List Char)) :
    EndsDigits (fractionText fraction ++ rest) := by
  rcases fraction with _ | digits
  · exact hrest
  · rintro _ ⟨⟩
    decide

theorem behind_ends (hrest : EndsDigits rest) (d : Decimal) :
    EndsDigits (fractionText d.fraction ++ (exponentText d.exponent ++ rest)) :=
  fractionText_ends (exponentText_ends hrest _) _

theorem text_append (d : Decimal) (rest : List Char) :
    d.text ++ rest = d.whole ++ (fractionText d.fraction ++ (exponentText d.exponent ++ rest)) := by
  simp [text]

theorem exponentLength_text (hd : d.WellFormed) (hrest : Delimited rest) :
    exponentLength (exponentText d.exponent ++ rest) = (exponentText d.exponent).length := by
  rcases hexp : d.exponent with _ | ⟨minus, digits⟩
  · obtain ⟨c, cs, rfl, hc⟩ := hrest
    rw [exponentText, List.nil_append, exponentLength, if_neg]
    · rfl
    · rcases isDelimiter_iff.1 hc with rfl | rfl | rfl | rfl | rfl <;> decide
  · have hdigits := hd.exponent minus digits hexp
    have hlength := decimalLength_digits hdigits hrest.endsDigits
    have hpos : digits.length ≠ 0 := fun h => hdigits.1 (List.length_eq_zero_iff.1 h)
    rw [exponentText, List.cons_append, List.cons_append, exponentLength, if_pos (by decide)]
    have hsign : (if (((if minus = true then '-' else '+') :: (digits ++ rest)).head? = some '+' ||
        ((if minus = true then '-' else '+') :: (digits ++ rest)).head? = some '-' : Bool) = true then 1 else 0) = 1 := by
      cases minus <;> rfl
    dsimp only
    rw [hsign, List.drop_one, List.tail_cons, hlength, if_neg hpos, List.length_cons, List.length_cons]
    omega

theorem wholeLength_text (hd : d.WellFormed) (hrest : EndsDigits rest) : wholeLength (d.whole ++ rest) = d.whole.length := by
  rcases hd.plain with hzero | hhead
  · rw [hzero]
    cases rest with
    | nil => rfl
    | cons c rest =>
      rw [List.cons_append, List.nil_append, wholeLength, if_neg]
      · rfl
      · have hc := (hrest c rfl).1
        intro h
        rw [isAsciiDigit_iff.2] at hc
        · cases hc
        · obtain ⟨h₁, h₂⟩ := h
          rw [Char.le_def, UInt32.le_iff_toNat_le] at h₁ h₂
          exact ⟨le_trans (by decide) h₁, h₂⟩
  · rw [wholeLength]
    · exact decimalLength_digits hd.whole hrest
    · rintro c cs h
      refine hhead ?_
      rw [← List.head?_append_of_ne_nil _ hd.whole.1, h]
      rfl

theorem radixLength_text (hd : d.WellFormed) (hrest : Delimited rest) : radixLength (d.text ++ rest) = 0 := by
  rcases hd.plain with hzero | hhead
  · rw [text_append, hzero, List.cons_append, List.nil_append]
    have hradix (c : Char) (cs : List Char) (hc : radixDigit? c = none) : radixLength ('0' :: c :: cs) = 0 := by
      rw [radixLength, hc]
      rfl
    rcases d.fraction with _ | fraction
    · rcases d.exponent with _ | ⟨minus, digits⟩
      · obtain ⟨c, cs, rfl, hc⟩ := hrest
        refine hradix c cs ?_
        rcases isDelimiter_iff.1 hc with rfl | rfl | rfl | rfl | rfl <;> rfl
      · exact hradix 'e' _ rfl
    · exact hradix '.' _ rfl
  · rw [radixLength]
    intro c cs h
    refine hhead ?_
    rw [← List.head?_append_of_ne_nil _ hd.whole.1, ← text_append, h]
    rfl

/-- A numeral is a number as far as it goes. -/
theorem numberLength_text (hd : d.WellFormed) (hrest : Delimited rest) : numberLength (d.text ++ rest) = d.text.length := by
  have hends := hrest.endsDigits
  have hpos : 0 < d.whole.length := List.length_pos_iff.2 hd.whole.1
  have hdecimal : decimalLength (d.text ++ rest) = d.whole.length := by
    rw [text_append]
    exact decimalLength_digits hd.whole (behind_ends hends d)
  have hwhole : wholeLength (d.text ++ rest) = d.whole.length := by
    rw [text_append]
    exact wholeLength_text hd (behind_ends hends d)
  have hdrop : (d.text ++ rest).drop d.whole.length = fractionText d.fraction ++ (exponentText d.exponent ++ rest) := by
    rw [text_append, List.drop_left]
  -- A big integer has an `n` behind its digits. Here a point, an exponent or a delimiter stands there.
  have hbig : bigintLength (d.text ++ rest) d.whole.length = 0 := by
    have hhead : (fractionText d.fraction ++ (exponentText d.exponent ++ rest)).head? ≠ some 'n' := by
      rcases d.fraction with _ | fraction
      · rcases d.exponent with _ | ⟨minus, digits⟩
        · obtain ⟨c, cs, rfl, hc⟩ := hrest
          rintro ⟨⟩
          exact absurd hc (by decide)
        · nofun
      · nofun
    rw [bigintLength, hdrop, decide_eq_false hhead, Bool.and_false, if_neg Bool.false_ne_true]
  have hpoint : pointLength (d.text ++ rest) = 0 := by
    rw [pointLength]
    intro cs h
    refine absurd (hd.whole.2 '.' ?_) (by decide)
    refine List.mem_of_mem_head? ?_
    rw [← List.head?_append_of_ne_nil _ hd.whole.1, ← text_append, h]
    rfl
  -- Either the fraction and the exponent reach to the end, or there are neither and the digits do.
  have hfraction : fractionLength (d.text ++ rest) = d.text.length ∨
      fractionLength (d.text ++ rest) = 0 ∧ d.text.length = d.whole.length := by
    have hexp := exponentLength_text hd hrest
    rw [fractionLength]
    dsimp only
    rw [hwhole, if_neg hpos.ne', hdrop]
    rcases hfrac : d.fraction with _ | fraction
    · have hlength : d.text.length = d.whole.length + (exponentText d.exponent).length := by
        rw [text, hfrac, List.length_append]
        rfl
      rw [fractionText, List.nil_append]
      split
      next rest' h =>
        rcases hexp : d.exponent with _ | ⟨minus, digits⟩ <;> rw [hexp] at h
        · obtain ⟨c, cs, rfl, hc⟩ := hrest
          cases h
          exact absurd hc (by decide)
        · cases h
      next =>
        rw [hexp]
        split
        next hzero => exact .inr ⟨rfl, by omega⟩
        next => exact .inl hlength.symm
    · have hdigits := decimalLength_digits (hd.fraction fraction hfrac) (exponentText_ends hends d.exponent)
      refine .inl ?_
      rw [fractionText, List.cons_append]
      simp only [hdigits, List.drop_left, hexp]
      rw [text, hfrac, fractionText]
      simp only [List.length_append, List.length_cons]
      omega
  have hle : d.whole.length ≤ d.text.length := by
    rw [text, List.length_append]
    omega
  rw [numberLength, radixLength_text hd hrest, hpoint, hdecimal, hbig]
  simp only [List.foldl_cons, List.foldl_nil, bigintLength]
  rcases hfraction with h | ⟨h, hlength⟩ <;> rw [h] <;> simp <;> omega

/-! ## The value of a numeral -/

theorem text_chars (hd : d.WellFormed) :
    ∀ c ∈ d.text, isAsciiDigit c = true ∨ c = '.' ∨ c = 'e' ∨ c = '-' ∨ c = '+' := by
  intro c hc
  rw [text, List.mem_append, List.mem_append] at hc
  rcases hc with hc | hc | hc
  · exact .inl (hd.whole.2 c hc)
  · rcases hfrac : d.fraction with _ | fraction <;> rw [hfrac] at hc
    · cases hc
    · rcases List.mem_cons.1 hc with rfl | hc
      · simp
      · exact .inl ((hd.fraction fraction hfrac).2 c hc)
  · rcases hexp : d.exponent with _ | ⟨minus, digits⟩ <;> rw [hexp] at hc
    · cases hc
    · rcases List.mem_cons.1 hc with rfl | hc
      · simp
      · rcases List.mem_cons.1 hc with rfl | hc
        · cases minus <;> simp
        · exact .inl ((hd.exponent minus digits hexp).2 c hc)

/-- Neither the separators nor the mark of a BigInt stand in a numeral, and no capitals do. -/
theorem text_plain (hd : d.WellFormed) : ∀ c ∈ d.text, c ≠ '_' ∧ c ≠ 'n' ∧ toLower c = c := by
  intro c hc
  rcases text_chars hd c hc with hdigit | rfl | rfl | rfl | rfl
  · have hbound := (isAsciiDigit_iff.1 hdigit).2
    refine ⟨ne_underscore hdigit, ?_, ?_⟩
    · rintro rfl
      exact absurd hdigit (by decide)
    · rw [toLower, if_neg]
      rintro ⟨h, -⟩
      rw [Char.le_def, UInt32.le_iff_toNat_le] at h
      have : 65 ≤ c.toNat := h
      omega
  all_goals decide

theorem head_digit (hd : d.WellFormed) : ∃ c cs, d.text = c :: cs ∧ isAsciiDigit c = true := by
  obtain ⟨hne, hall⟩ := hd.whole
  obtain ⟨c, cs, hwhole⟩ := List.exists_cons_of_ne_nil hne
  refine ⟨c, cs ++ (fractionText d.fraction ++ exponentText d.exponent), by rw [text, hwhole, List.cons_append], ?_⟩
  rw [hwhole] at hall
  exact hall c List.mem_cons_self

/-- What stands behind a leading zero belongs to no other kind of number. -/
theorem text_zero (hd : d.WellFormed) (h : d.text = '0' :: c :: cs) : c = '.' ∨ c = 'e' := by
  have hwhole : d.whole = ['0'] := by
    refine hd.plain.resolve_right fun hhead => hhead ?_
    have := congrArg List.head? h
    rwa [text, List.head?_append_of_ne_nil _ hd.whole.1] at this
  rw [text, hwhole, List.singleton_append] at h
  have htail := (List.cons.inj h).2
  rcases hfrac : d.fraction with _ | fraction <;> rw [hfrac] at htail
  · rcases hexp : d.exponent with _ | ⟨minus, digits⟩ <;> rw [hexp] at htail
    · cases htail
    · exact .inr (List.cons.inj htail).1.symm
  · exact .inl (List.cons.inj htail).1.symm

theorem decimalValue?_text (hd : d.WellFormed) : decimalValue? d.text = some d.value := by
  obtain ⟨c, cs, htext, hc⟩ := head_digit hd
  have hends : EndsDigits (exponentText d.exponent) := by
    have := @exponentText_ends [] (by nofun) d.exponent
    rwa [List.append_nil] at this
  have hbehind : EndsDigits (fractionText d.fraction ++ exponentText d.exponent) := fractionText_ends hends _
  obtain ⟨hwhole, hafter⟩ := takeWhile_digits hd.whole.2 hbehind
  -- A numeral begins with a digit, so it is none of the words for what is no number.
  have hword (w : String) (hw : ∀ e, w.toList.head? = some e → isAsciiDigit e = false) (hne : w.toList ≠ []) :
      d.text ≠ w.toList := by
    intro h
    rw [htext] at h
    have := hw c (by rw [← h]; rfl)
    rw [hc] at this
    cases this
  have hnonempty : d.whole.isEmpty = false := by
    rw [List.isEmpty_eq_false_iff]
    exact hd.whole.1
  rw [decimalValue?]
  · rw [decide_eq_false (hword "inf" (by rintro _ ⟨⟩; rfl) (by decide)),
      decide_eq_false (hword "infinity" (by rintro _ ⟨⟩; rfl) (by decide)), Bool.or_false, if_neg Bool.false_ne_true,
      if_neg (hword "nan" (by rintro _ ⟨⟩; rfl) (by decide)), show d.text.takeWhile isAsciiDigit = d.whole from hwhole,
      show d.text.dropWhile isAsciiDigit = fractionText d.fraction ++ exponentText d.exponent from hafter]
    simp only [hnonempty, Bool.false_and, Bool.false_eq_true, if_false]
    have hfraction {fraction : List Char} (hfrac : d.fraction = some fraction) :
        (fraction ++ exponentText d.exponent).takeWhile isAsciiDigit = fraction ∧
          (fraction ++ exponentText d.exponent).dropWhile isAsciiDigit = exponentText d.exponent :=
      takeWhile_digits (hd.fraction fraction hfrac).2 hends
    have hexponent {minus : Bool} {digits : List Char} (hexp : d.exponent = some (minus, digits)) :
        (digits.isEmpty || !digits.all isAsciiDigit) = false := by
      rw [Bool.or_eq_false_iff, List.isEmpty_eq_false_iff, Bool.not_eq_false', List.all_eq_true]
      exact hd.exponent minus digits hexp
    rw [value, digits, power]
    rcases hexp : d.exponent with _ | ⟨minus, digits⟩
    · rcases hfrac : d.fraction with _ | fraction
      · rfl
      · have h := hfraction hfrac
        rw [hexp] at h
        simp only [fractionText, List.cons_append, h]
        rfl
    · have hvalue (fraction : List Char) (e : Int) :
          (if (digits.isEmpty || !digits.all isAsciiDigit) = true then none
            else some (Double.ofParts false d.whole fraction e)) = some (Double.ofParts false d.whole fraction e) := by
        rw [hexponent hexp, if_neg Bool.false_ne_true]
      rcases hfrac : d.fraction with _ | fraction
      · cases minus <;> exact hvalue [] _
      · have h := hfraction hfrac
        rw [hexp] at h
        cases minus <;> simp only [fractionText, List.cons_append, h] <;> exact hvalue fraction _
  all_goals
    intro cs h
    rw [htext] at h
    cases h
    exact absurd hc (by decide)

/-- A numeral is decoded as the double nearest to it. -/
theorem decodeNumber?_text (hd : d.WellFormed) : decodeNumber? (String.ofList d.text) = some d.value := by
  have hfilter : d.text.filter (fun c => decide (c ≠ '_')) = d.text :=
    List.filter_eq_self.2 fun c hc => decide_eq_true (text_plain hd c hc).1
  have hlast : d.text.getLast? ≠ some 'n' := fun h => (text_plain hd 'n' (List.mem_of_getLast? h)).2.1 rfl
  have hlower : d.text.map toLower = d.text := by
    conv_rhs => rw [← List.map_id d.text]
    exact List.map_congr_left fun c hc => (text_plain hd c hc).2.2
  have hvalue := decimalValue?_text hd
  rw [decodeNumber?, String.toList_ofList, hfilter, if_neg hlast, hlower]
  split
  next h => exact absurd (text_zero hd h) (by decide)
  next h => exact absurd (text_zero hd h) (by decide)
  next h => exact absurd (text_zero hd h) (by decide)
  next =>
    split
    next c cs h =>
      rw [if_neg]
      · exact hvalue
      rw [List.all_cons]
      rcases text_zero hd h with rfl | rfl <;> simp [isOctalDigit]
    next => exact hvalue

end Decimal
end Graft
