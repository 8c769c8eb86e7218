import Graft.Proofs.Number.Shortest
import Graft.Text.Unicode
import Mathlib.Data.List.TakeWhile
import Mathlib.Tactic.IntervalCases
/-!
# Decimals

A `Decimal` is a decimal numeral in its parts. Its value is the double nearest to the rational that it denotes
(`Double.ofDecimal_of_contains`), also where `Double.ofDecimal` answers without the power of ten, since no numeral in the
interval of a positive double is so large or so small.
-/

namespace Graft

open Unicode (isAsciiDigit)

variable {cs ds : List Char} {c : Char} {n k : Nat} {x : Double}

/-! ## Digits -/

theorem isAsciiDigit_iff : isAsciiDigit c = true ↔ 48 ≤ c.toNat ∧ c.toNat ≤ 57 := by
  simp only [isAsciiDigit, Bool.and_eq_true, decide_eq_true_eq, Char.le_def, UInt32.le_iff_toNat_le]
  rfl

theorem isAsciiDigit_toDigits (n : Nat) : ∀ c ∈ Nat.toDigits 10 n, isAsciiDigit c = true := by
  intro c hc
  have h := Nat.isDigit_of_mem_toDigits (by decide) (by decide) hc
  rw [Char.isDigit, Bool.and_eq_true, decide_eq_true_eq, decide_eq_true_eq] at h
  exact isAsciiDigit_iff.2 ⟨UInt32.le_iff_toNat_le.1 h.1, UInt32.le_iff_toNat_le.1 h.2⟩

theorem mem_digits (h : isAsciiDigit c = true) : c ∈ ['0', '1', '2', '3', '4', '5', '6', '7', '8', '9'] := by
  obtain ⟨h₁, h₂⟩ := isAsciiDigit_iff.1 h
  have hc : c = Char.ofNat c.toNat := (Char.ofNat_toNat c).symm
  generalize c.toNat = n at h₁ h₂ hc
  subst hc
  interval_cases n <;> decide

/-- What holds of the ten digits holds of every digit. -/
theorem forall_digit {q : Char → Bool} (hq : ['0', '1', '2', '3', '4', '5', '6', '7', '8', '9'].all q = true)
    (h : isAsciiDigit c = true) : q c = true := List.all_eq_true.1 hq c (mem_digits h)

theorem digitChar_toNat (h : isAsciiDigit c = true) : Nat.digitChar (c.toNat - '0'.toNat) = c := by
  refine of_decide_eq_true (forall_digit (q := fun c => decide (Nat.digitChar (c.toNat - '0'.toNat) = c)) ?_ h)
  decide

theorem toDigits_ne_nil (n : Nat) : Nat.toDigits 10 n ≠ [] := by
  rw [Nat.toDigits_eq_if (by decide)]
  split <;> simp

/-- A positive number is written without a leading zero. -/
theorem head_toDigits (hn : 0 < n) : (Nat.toDigits 10 n).head? ≠ some '0' := by
  induction n using Nat.strong_induction_on with
  | _ n ih =>
    rw [Nat.toDigits_eq_if (by decide)]
    split
    next hlt =>
      interval_cases n <;> decide
    next hge =>
      rw [List.head?_append_of_ne_nil _ (toDigits_ne_nil _)]
      exact ih (n / 10) (by omega) (by omega)

theorem text_toDigits (n : Nat) : Digits.text (Digits.toDigits n) = Nat.toDigits 10 n := by
  rw [Digits.text, Digits.toDigits, List.map_map]
  have hall := isAsciiDigit_toDigits n
  generalize Nat.toDigits 10 n = cs at hall
  induction cs with
  | nil => rfl
  | cons c cs ih =>
    rw [List.map_cons, ih fun d hd => hall d (List.mem_cons_of_mem c hd)]
    exact congrArg (· :: cs) (digitChar_toNat (hall c List.mem_cons_self))

namespace Double

theorem digitsValue_eq (cs : List Char) : digitsValue cs = Nat.ofDigitChars 10 cs 0 := rfl

theorem digitsValue_toDigits (n : Nat) : digitsValue (Nat.toDigits 10 n) = n :=
  Nat.ofDigitChars_toDigits (by decide) (by decide)

theorem digitsValue_append (cs ds : List Char) : digitsValue (cs ++ ds) = digitsValue cs * 10 ^ ds.length + digitsValue ds := by
  have from' (init : Nat) : Nat.ofDigitChars 10 ds init = init * 10 ^ ds.length + Nat.ofDigitChars 10 ds 0 := by
    induction ds generalizing init with
    | nil => simp [Nat.ofDigitChars]
    | cons d ds ih =>
      rw [Nat.ofDigitChars_cons, ih, Nat.ofDigitChars_cons, ih (10 * 0 + _), List.length_cons]
      ring
  rw [digitsValue_eq, Nat.ofDigitChars, List.foldl_append]
  exact from' _

theorem digitsValue_zeros (k : Nat) : digitsValue (List.replicate k '0') = 0 := by
  induction k with
  | zero => rfl
  | succ k ih =>
    rw [List.replicate_succ, ← List.singleton_append, digitsValue_append, ih]
    simp [digitsValue]

end Double

/-! ## Numerals -/

/-- A decimal numeral: digits, perhaps a fraction, perhaps an exponent with its sign (`true` for a minus). -/
structure Decimal where
  whole : List Char
  fraction : Option (List Char)
  exponent : Option (Bool × List Char)

namespace Decimal

def fractionText : Option (List Char) → List Char
  | none => []
  | some digits => '.' :: digits

def exponentText : Option (Bool × List Char) → List Char
  | none => []
  | some (minus, digits) => 'e' :: (if minus then '-' else '+') :: digits

def text (d : Decimal) : List Char := d.whole ++ (fractionText d.fraction ++ exponentText d.exponent)

/-- Digits, of which there are some. -/
def AreDigits (cs : List Char) : Prop := cs ≠ [] ∧ ∀ c ∈ cs, isAsciiDigit c = true

structure WellFormed (d : Decimal) : Prop where
  whole : AreDigits d.whole
  /-- No zero leads, but a single one may stand for itself. -/
  plain : d.whole = ['0'] ∨ d.whole.head? ≠ some '0'
  fraction : ∀ digits, d.fraction = some digits → AreDigits digits
  exponent : ∀ minus digits, d.exponent = some (minus, digits) → AreDigits digits

/-- The digits of the numeral, without its point. -/
def digits (d : Decimal) : Nat := Double.digitsValue (d.whole ++ d.fraction.getD [])

/-- The power of ten that the digits are multiplied with. -/
def power (d : Decimal) : Int :=
  (match d.exponent with
    | none => 0
    | some (minus, ds) => if minus then -(Double.digitsValue ds : Int) else Double.digitsValue ds) -
    (d.fraction.getD []).length

/-- The double nearest to what the numeral denotes. -/
def value (d : Decimal) : Double := Double.ofDecimal false d.digits d.power

/-- What the numeral denotes. -/
def rational (d : Decimal) : ℚ := d.digits * 10 ^ d.power

end Decimal

/-! ## Values -/

namespace Double

variable {neg : Bool} {e : Int}

/-- A decimal within reach of a double is taken as the ratio that it is. -/
theorem ofDecimal_eq (neg : Bool) (hn : 0 < n) (hlow : (1 / 2 ^ 1075 : ℚ) ≤ n * 10 ^ e)
    (hhigh : (n * 10 ^ e : ℚ) ≤ 2 ^ 1024) :
    ∃ num den : Nat, 0 < num ∧ 0 < den ∧ (num / den : ℚ) = n * 10 ^ e ∧ ofDecimal neg n e = ofRatio neg num den := by
  obtain ⟨hl₁, hl₂⟩ := log2_bounds hn
  have h10 (a b : Int) : (10 : ℚ) ^ (a + b) = 10 ^ a * 10 ^ b := zpow_add₀ (by norm_num) a b
  rw [ofDecimal, if_neg hn.ne']
  dsimp only
  generalize Nat.log2 n = l at hl₁ hl₂ ⊢
  -- The size of the value is estimated first. Neither estimate is out of reach, so the exact ratio is rounded.
  have htop : ¬ 400 < (l : Int) / 4 + e := by
    intro hlt
    have hquarter : (10 : ℚ) ^ ((l / 4 : Nat) : Int) ≤ n := by
      rw [zpow_natCast]
      calc (10 : ℚ) ^ (l / 4) ≤ 16 ^ (l / 4) := by gcongr; norm_num
        _ = 2 ^ (4 * (l / 4)) := by rw [pow_mul]; norm_num
        _ ≤ 2 ^ l := pow_le_pow_right₀ (by norm_num) (by omega)
        _ ≤ n := by rwa [zpow_natCast] at hl₁
    have hbig : (2 ^ 1024 : ℚ) < 10 ^ (401 : Int) := by
      rw [show (401 : Int) = ((401 : Nat) : Int) from rfl, zpow_natCast]
      exact_mod_cast (by decide +kernel : 2 ^ 1024 < 10 ^ 401)
    refine absurd hhigh (not_le.2 (hbig.trans_le ?_))
    calc (10 : ℚ) ^ (401 : Int) ≤ 10 ^ (((l / 4 : Nat) : Int) + e) := zpow_le_zpow_right₀ (by norm_num) (by omega)
      _ = 10 ^ ((l / 4 : Nat) : Int) * 10 ^ e := h10 _ _
      _ ≤ n * 10 ^ e := by gcongr
  have hbottom : ¬ (l : Int) + e < -400 := by
    intro hlt
    have hdouble : (n : ℚ) < 2 * 10 ^ (l : Int) := by
      refine hl₂.trans_le ?_
      rw [zpow_add_one₀ (by norm_num), mul_comm, zpow_natCast, zpow_natCast]
      gcongr
      norm_num
    have hsmall : (2 * 10 ^ (-401 : Int) : ℚ) ≤ 1 / 2 ^ 1075 := by
      rw [show (-401 : Int) = -((401 : Nat) : Int) from rfl, zpow_neg, zpow_natCast, le_div_iff₀ (by positivity),
        mul_assoc, inv_mul_eq_div, ← mul_div_assoc, div_le_one (by positivity)]
      exact_mod_cast (by decide +kernel : 2 * 2 ^ 1075 ≤ 10 ^ 401)
    refine absurd hlow (not_le.2 (lt_of_lt_of_le ?_ hsmall))
    calc (n * 10 ^ e : ℚ) < 2 * 10 ^ (l : Int) * 10 ^ e := by gcongr
      _ = 2 * 10 ^ ((l : Int) + e) := by rw [mul_assoc, h10]
      _ ≤ 2 * 10 ^ (-401 : Int) :=
        mul_le_mul_of_nonneg_left (zpow_le_zpow_right₀ (by norm_num) (by omega)) (by norm_num)
  rw [if_neg htop, if_neg hbottom]
  by_cases he : 0 ≤ e
  · obtain ⟨m, rfl⟩ := Int.eq_ofNat_of_zero_le he
    refine ⟨n * 10 ^ m, 1, by positivity, by decide, ?_, by rw [if_pos he, tenTo_eq, Int.toNat_natCast]⟩
    push_cast
    rw [zpow_natCast, div_one]
  · obtain ⟨m, hm⟩ := Int.eq_ofNat_of_zero_le (show 0 ≤ -e by omega)
    refine ⟨n, 10 ^ m, hn, by positivity, ?_, by rw [if_neg he, tenTo_eq, hm, Int.toNat_natCast]⟩
    rw [show e = -(m : Int) by omega, zpow_neg, zpow_natCast]
    push_cast
    rw [div_eq_mul_inv]

/-- A decimal in the interval of a double is read as that double. -/
theorem ofDecimal_of_contains (neg : Bool) (hfin : x.isFinite = true) (hm : 0 < x.mantissa) (hn : 0 < n)
    (h : x.interval.Contains (4 * (n * 10 ^ e / 2 ^ x.scale))) : ofDecimal neg n e = ofFields neg x.magnitude := by
  obtain ⟨hlow, hhigh, -, -⟩ := contains_bounds h hm
  have hpos : (0 : ℚ) < 2 ^ x.scale := by positivity
  have h2 (a b : Int) : (2 : ℚ) ^ (a + b) = 2 ^ a * 2 ^ b := zpow_add₀ (by norm_num) a b
  rw [le_div_iff₀ hpos] at hlow
  rw [div_le_iff₀ hpos] at hhigh
  -- the interval of a double lies within reach of `ofDecimal_eq`
  have hreach₁ : (1 / 2 ^ 1075 : ℚ) ≤ n * 10 ^ e := by
    have hhalf : (1 / 2 : ℚ) ≤ x.mantissa - 1 / 2 := by
      have : (1 : ℚ) ≤ x.mantissa := by exact_mod_cast hm
      linarith
    refine le_trans ?_ hlow
    calc (1 / 2 ^ 1075 : ℚ) = 1 / 2 * 2 ^ (-1074 : Int) := by
          rw [show (-1074 : Int) = -((1074 : Nat) : Int) from rfl, zpow_neg, zpow_natCast, pow_succ]
          field_simp
      _ ≤ (x.mantissa - 1 / 2) * 2 ^ x.scale := by
        gcongr
        · norm_num
        · exact x.scale_ge
  have hreach₂ : (n * 10 ^ e : ℚ) ≤ 2 ^ 1024 := by
    have hfull : (x.mantissa + 1 / 2 : ℚ) ≤ 2 ^ (53 : Int) := by
      have : (x.mantissa + 1 : ℚ) ≤ 2 ^ 53 := by exact_mod_cast x.mantissa_lt
      norm_num at this ⊢
      linarith
    refine hhigh.trans ?_
    calc (x.mantissa + 1 / 2) * 2 ^ x.scale ≤ (2 ^ (53 : Int) * 2 ^ (971 : Int) : ℚ) := by
          gcongr
          · norm_num
          · exact scale_le hfin
      _ = 2 ^ 1024 := by
        rw [← h2, show (53 : Int) + 971 = ((1024 : Nat) : Int) by norm_num, zpow_natCast]
  obtain ⟨num, den, hnum, hden, hratio, heq⟩ := ofDecimal_eq neg hn hreach₁ hreach₂
  rw [← hratio] at h
  rw [heq, ofRatio_of_contains hfin hm hnum hden h]

end Double

/-! ## Numerals of doubles -/

namespace Digits

/-- The decimal that digits and their point stand for. -/
def rational (d : Digits) : ℚ := Double.digitsValue (text d.digits) * 10 ^ (d.point - d.digits.length)

/-- Digits without a leading zero. -/
structure Plain (d : Digits) : Prop where
  digits : Decimal.AreDigits (text d.digits)
  head : (text d.digits).head? ≠ some '0'

theorem length_text (ds : List Nat) : (text ds).length = ds.length := List.length_map ..

/-- What is dropped are zeros. -/
theorem dropTrailingZeros_spec (ds : List Nat) : ∃ k, text ds = text (dropTrailingZeros ds) ++ List.replicate k '0' := by
  have hsplit := List.takeWhile_append_dropWhile (p := fun d : Nat => decide (d = 0)) (l := ds.reverse)
  generalize hz : ds.reverse.takeWhile (fun d => decide (d = 0)) = zeros at hsplit
  have hzeros : zeros = List.replicate zeros.length 0 := by
    refine List.eq_replicate_iff.2 ⟨rfl, fun d hd => ?_⟩
    rw [← hz] at hd
    have := List.mem_takeWhile_imp hd
    simpa using this
  refine ⟨zeros.length, ?_⟩
  have hds : ds = dropTrailingZeros ds ++ List.replicate zeros.length 0 := by
    rw [dropTrailingZeros, ← List.reverse_inj, List.reverse_append, List.reverse_reverse, List.reverse_replicate, ← hzeros]
    exact hsplit.symm
  conv_lhs => rw [hds]
  rw [text, List.map_append, List.map_replicate]
  rfl

end Digits

namespace Double

/-- The shortest digits of a double lie in its interval. -/
theorem shortest_spec (hfin : x.isFinite = true) (hm : 0 < x.mantissa) :
    x.shortest.Plain ∧ x.interval.Contains (4 * (x.shortest.rational / 2 ^ x.scale)) := by
  obtain ⟨hpos, hin⟩ := searchGrids_contains hfin hm
  rw [shortest]
  dsimp only
  generalize searchGrids x.interval (x.scale - 2) (decimalPoint x.interval (x.scale - 2)) 18 1 = found at hpos hin
  obtain ⟨c, p⟩ := found
  dsimp only at hpos hin ⊢
  obtain ⟨k, hk⟩ := Digits.dropTrailingZeros_spec (Digits.toDigits c)
  -- the digits are those that are kept, and `k` zeros behind them
  have hlength : (Digits.toDigits c).length = (Digits.dropTrailingZeros (Digits.toDigits c)).length + k := by
    rw [← Digits.length_text, hk, List.length_append, List.length_replicate, Digits.length_text]
  rw [hlength]
  rw [text_toDigits] at hk
  generalize Digits.dropTrailingZeros (Digits.toDigits c) = kept at hk
  have hvalue : c = digitsValue (Digits.text kept) * 10 ^ k := by
    conv_lhs => rw [← digitsValue_toDigits c, hk, digitsValue_append, digitsValue_zeros, List.length_replicate, add_zero]
  refine ⟨⟨⟨?_, fun d hd => ?_⟩, ?_⟩, ?_⟩
  · intro hnil
    rw [show Digits.text kept = [] from hnil] at hvalue
    simp [digitsValue] at hvalue
    omega
  · refine isAsciiDigit_toDigits c d ?_
    rw [hk]
    exact List.mem_append_left _ hd
  · intro hhead
    refine head_toDigits hpos ?_
    rw [hk, List.head?_append]
    change (Digits.text kept).head? = some '0' at hhead
    rw [hhead]
    rfl
  · have hpow : ((10 : ℚ) ^ (p + ((kept.length + k : Nat) : Int) - kept.length)) = 10 ^ k * 10 ^ p := by
      rw [show p + ((kept.length + k : Nat) : Int) - kept.length = k + p by push_cast; ring, zpow_add₀ (by norm_num),
        zpow_natCast]
    rw [Digits.rational]
    dsimp only
    rw [hpow]
    refine cast (congrArg _ ?_) hin
    rw [hvalue, zpow_sub₀ (by norm_num)]
    push_cast
    field_simp

end Double

namespace Decimal

theorem areDigits_append (hc : AreDigits cs) (hd : ∀ d ∈ ds, isAsciiDigit d = true) : AreDigits (cs ++ ds) :=
  ⟨List.append_ne_nil_of_left_ne_nil hc.1 ds, List.forall_mem_append.2 ⟨hc.2, hd⟩⟩

theorem point_not_digit (h : ∀ c ∈ cs, isAsciiDigit c = true) : '.' ∉ cs := fun hmem => absurd (h _ hmem) (by decide)

theorem areDigits_zero : AreDigits ['0'] := ⟨by decide, List.forall_mem_singleton.2 rfl⟩

theorem zeros_digits (k : Nat) : ∀ c ∈ List.replicate k '0', isAsciiDigit c = true := by
  intro c hc
  rw [List.eq_of_mem_replicate hc]
  decide

/-- Digits with a point among them, in front of them or behind them. -/
theorem positional_spec {d : Digits} (hd : d.Plain) : ∃ n : Decimal, n.WellFormed ∧ n.rational = d.rational ∧
    n.text = if (Double.positional d).contains '.' then Double.positional d else Double.positional d ++ ['.', '0'] := by
  obtain ⟨⟨hne, hdigits⟩, hhead⟩ := hd
  rw [Digits.rational, ← Digits.length_text, Double.positional]
  generalize Digits.text d.digits = ds at hne hdigits hhead
  generalize d.point = point
  have hnone (minus : Bool) (digits : List Char) (h : (none : Option (Bool × List Char)) = some (minus, digits)) :
      AreDigits digits := by cases h
  by_cases hfront : point ≤ 0
  · rw [if_pos hfront]
    -- the point stands in front of the digits, behind a zero
    obtain ⟨k, hk⟩ := Int.eq_ofNat_of_zero_le (show 0 ≤ -point by omega)
    rw [show (-point).toNat = k by omega]
    refine ⟨⟨['0'], some (List.replicate k '0' ++ ds), none⟩, ⟨areDigits_zero, .inl rfl, ?_, hnone⟩, ?_, ?_⟩
    · rintro digits ⟨⟩
      exact ⟨List.append_ne_nil_of_right_ne_nil _ hne, List.forall_mem_append.2 ⟨zeros_digits k, hdigits⟩⟩
    · have hvalue : Double.digitsValue (['0'] ++ (List.replicate k '0' ++ ds)) = Double.digitsValue ds := by
        rw [← List.append_assoc, Double.digitsValue_append,
          show ['0'] ++ List.replicate k '0' = List.replicate (k + 1) '0' from rfl,
          Double.digitsValue_zeros, zero_mul, zero_add]
      rw [rational, digits, power]
      dsimp only [Option.getD]
      rw [hvalue, List.length_append, List.length_replicate]
      congr 2
      push_cast
      omega
    · rw [if_pos (by simp)]
      simp [text, fractionText, exponentText]
  · rw [if_neg hfront]
    obtain ⟨q, rfl⟩ := Int.eq_ofNat_of_zero_le (show 0 ≤ point by omega)
    rw [Int.toNat_natCast]
    by_cases hbehind : ds.length ≤ q
    · rw [if_pos hbehind]
      -- the point stands behind the digits, after zeros if there are too few of them
      have hall := (areDigits_append ⟨hne, hdigits⟩ (zeros_digits (q - ds.length)))
      refine ⟨⟨ds ++ List.replicate (q - ds.length) '0', some ['0'], none⟩, ⟨hall, .inr ?_, ?_, hnone⟩, ?_, ?_⟩
      · rwa [List.head?_append_of_ne_nil _ hne]
      · rintro digits ⟨⟩
        exact areDigits_zero
      · rw [rational, digits, power]
        dsimp only [Option.getD]
        rw [List.append_assoc, show List.replicate (q - ds.length) '0' ++ ['0'] = List.replicate (q - ds.length + 1) '0' from
            List.replicate_succ'.symm, Double.digitsValue_append, Double.digitsValue_zeros, List.length_replicate, add_zero,
          show ((q : Nat) : Int) - ds.length = ((q - ds.length : Nat) : Int) by omega, zpow_natCast]
        push_cast
        rw [pow_succ, show (0 : Int) - (([(Char.ofNat 48)].length : Nat) : Int) = -1 from rfl, zpow_neg_one]
        field_simp
      · have hplain : (ds ++ List.replicate (q - ds.length) '0').contains '.' = false := by
          have := point_not_digit hall.2
          simpa using this
        rw [hplain, if_neg Bool.false_ne_true]
        simp [text, fractionText, exponentText]
    · rw [if_neg hbehind]
      -- the point stands among the digits
      have hsplit := List.take_append_drop q ds
      refine ⟨⟨ds.take q, some (ds.drop q), none⟩,
        ⟨⟨?_, fun c hc => hdigits c (List.mem_of_mem_take hc)⟩, .inr ?_, ?_, hnone⟩, ?_, ?_⟩
      · rw [ne_eq, List.take_eq_nil_iff, not_or]
        exact ⟨by omega, hne⟩
      · rwa [List.head?_take, if_neg (by omega)]
      · rintro digits ⟨⟩
        refine ⟨?_, fun c hc => hdigits c (List.mem_of_mem_drop hc)⟩
        rw [ne_eq, List.drop_eq_nil_iff]
        exact hbehind
      · rw [rational, digits, power]
        dsimp only [Option.getD]
        rw [hsplit, List.length_drop]
        congr 2
        omega
      · rw [if_pos (by simp)]
        simp [text, fractionText, exponentText]

/-- One digit, a fraction if there are more, and an exponent. -/
theorem exponential_spec {d : Digits} (hd : d.Plain) : ∃ n : Decimal, n.WellFormed ∧ n.rational = d.rational ∧
    n.text = (if (Digits.text d.digits).length ≤ 1 then Digits.text d.digits
      else (Digits.text d.digits).take 1 ++ '.' :: (Digits.text d.digits).drop 1) ++
        'e' :: (if d.point - 1 < 0 then '-' else '+') :: Nat.toDigits 10 (d.point - 1).natAbs := by
  obtain ⟨⟨hne, hdigits⟩, hhead⟩ := hd
  rw [Digits.rational, ← Digits.length_text]
  generalize Digits.text d.digits = ds at hne hdigits hhead
  generalize d.point = point
  have hexp (minus : Bool) (digits : List Char)
      (h : some (decide (point - 1 < 0), Nat.toDigits 10 (point - 1).natAbs) = some (minus, digits)) : AreDigits digits := by
    obtain ⟨-, rfl⟩ := Prod.mk.inj (Option.some.inj h)
    exact ⟨toDigits_ne_nil _, isAsciiDigit_toDigits _⟩
  have hpower : (if decide (point - 1 < 0) = true then -(Double.digitsValue (Nat.toDigits 10 (point - 1).natAbs) : Int)
      else Double.digitsValue (Nat.toDigits 10 (point - 1).natAbs)) = point - 1 := by
    rw [Double.digitsValue_toDigits]
    split
    next h =>
      have := of_decide_eq_true h
      omega
    next h =>
      have : ¬ point - 1 < 0 := by simpa using h
      omega
  -- With a single digit there is no fraction.
  by_cases hone : ds.length ≤ 1
  · rw [if_pos hone]
    refine ⟨⟨ds, none, some (decide (point - 1 < 0), Nat.toDigits 10 (point - 1).natAbs)⟩,
      ⟨⟨hne, hdigits⟩, .inr hhead, nofun, hexp⟩, ?_, ?_⟩
    · have hlen : ds.length = 1 := by
        have := List.length_pos_iff.2 hne
        omega
      rw [rational, digits, power]
      dsimp only [Option.getD]
      rw [hpower, hlen, List.append_nil, List.length_nil, Nat.cast_zero, sub_zero, Nat.cast_one]
    · simp [text, fractionText, exponentText]
  · rw [if_neg hone]
    have hsplit := List.take_append_drop 1 ds
    refine ⟨⟨ds.take 1, some (ds.drop 1), some (decide (point - 1 < 0), Nat.toDigits 10 (point - 1).natAbs)⟩,
      ⟨⟨?_, fun c hc => hdigits c (List.mem_of_mem_take hc)⟩, .inr ?_, ?_, hexp⟩, ?_, ?_⟩
    · rw [ne_eq, List.take_eq_nil_iff, not_or]
      exact ⟨by decide, hne⟩
    · rwa [List.head?_take, if_neg (by decide)]
    · rintro digits ⟨⟩
      refine ⟨?_, fun c hc => hdigits c (List.mem_of_mem_drop hc)⟩
      rw [ne_eq, List.drop_eq_nil_iff]
      exact hone
    · rw [rational, digits, power]
      dsimp only [Option.getD]
      rw [hsplit, hpower, List.length_drop]
      congr 2
      omega
    · simp [text, fractionText, exponentText]

end Decimal

namespace Double

/-- The text of a finite double is its sign and a numeral for the rest of it. -/
theorem toJson_spec (hfin : x.isFinite = true) :
    ∃ n : Decimal, n.WellFormed ∧ n.value = ofFields false x.magnitude ∧ x.toJson = signed x n.text := by
  by_cases hzero : x.magnitude = 0
  · refine ⟨⟨['0'], some ['0'], none⟩, ⟨Decimal.areDigits_zero, .inl rfl, ?_, nofun⟩, ?_, ?_⟩
    · rintro digits ⟨⟩
      exact Decimal.areDigits_zero
    · rw [hzero]
      rfl
    · rw [toJson, if_pos hzero]
      rfl
  · have hm := mantissa_pos hzero
    obtain ⟨hplain, hin⟩ := shortest_spec hfin hm
    -- either notation has the value of the shortest digits
    have hvalue {n : Decimal} (hn : n.rational = x.shortest.rational) : n.value = ofFields false x.magnitude := by
      rw [← hn] at hin
      refine ofDecimal_of_contains false hfin hm (Nat.pos_of_ne_zero fun h => ?_) hin
      have hbound := (contains_bounds hin hm).1
      have : (1 : ℚ) ≤ x.mantissa := by exact_mod_cast hm
      rw [Decimal.rational, h] at hbound
      norm_num at hbound
      linarith
    rw [toJson, if_neg hzero]
    dsimp only
    split
    next =>
      obtain ⟨n, hwell, hrational, htext⟩ := Decimal.positional_spec hplain
      exact ⟨n, hwell, hvalue hrational, by rw [htext]⟩
    next =>
      obtain ⟨n, hwell, hrational, htext⟩ := Decimal.exponential_spec hplain
      exact ⟨n, hwell, hvalue hrational, by rw [htext]⟩

/-- An integer is rounded as the ratio that it is. -/
theorem ofDecimal_integer (neg : Bool) (hn : n ≤ 2 ^ 64) : ofDecimal neg n 0 = ofRatio neg n 1 := by
  rw [ofDecimal]
  by_cases hzero : n = 0
  · rw [if_pos hzero, hzero, ofRatio, if_pos rfl]
  · have hlog : Nat.log2 n < 65 := by
      rw [Nat.log2_lt hzero]
      omega
    rw [if_neg hzero]
    dsimp only
    rw [if_neg (by omega), if_neg (by omega), if_pos (Int.le_refl 0), Int.toNat_zero, tenTo_eq, pow_zero, mul_one]

/-- The digits of an integer are a numeral for it. -/
theorem toDigits_spec (hn : n ≤ 2 ^ 64) :
    ∃ d : Decimal, d.WellFormed ∧ d.value = ofRatio false n 1 ∧ d.text = Nat.toDigits 10 n := by
  refine ⟨⟨Nat.toDigits 10 n, none, none⟩, ⟨⟨toDigits_ne_nil n, isAsciiDigit_toDigits n⟩, ?_, nofun, nofun⟩, ?_, ?_⟩
  · rcases Nat.eq_zero_or_pos n with rfl | hpos
    · exact .inl rfl
    · exact .inr (head_toDigits hpos)
  · have hdigits : Decimal.digits ⟨Nat.toDigits 10 n, none, none⟩ = n := by
      rw [Decimal.digits, Option.getD_none, List.append_nil, digitsValue_toDigits]
    rw [Decimal.value, hdigits]
    exact ofDecimal_integer false hn
  · simp [Decimal.text, Decimal.fractionText, Decimal.exponentText]

end Double
end Graft
