import Graft.Number.Shortest
import Mathlib.Algebra.Order.Field.Power
import Mathlib.Algebra.Order.Ring.Rat
import Mathlib.Data.Nat.Log
import Mathlib.Tactic.FieldSimp
import Mathlib.Tactic.Linarith
import Mathlib.Tactic.LinearCombination
import Mathlib.Tactic.NormNum
import Mathlib.Tactic.Positivity
import Mathlib.Tactic.Ring
/-!
# Rounding to a double

A ratio that lies in the rounding interval of a positive double, the interval of `Double.interval`, is rounded to that
double (`Double.ofRatio_of_contains`). All is said in rational numbers.
-/

namespace Graft

theorem twoTo_eq (n : Nat) : twoTo n = 2 ^ n := rfl

theorem tenTo_eq (n : Nat) : tenTo n = 10 ^ n := rfl

namespace Double

/-! ## Fields -/

variable {x : Double} {neg : Bool} {num den n d k : Nat}

theorem magnitude_lt (x : Double) : x.magnitude < 2 ^ 63 := Nat.mod_lt _ (by decide)

theorem magnitude_ofFields (h : k < 2 ^ 63) : (ofFields neg k).magnitude = k := by
  rw [magnitude, ofFields, UInt64.toNat_ofNat', twoTo_eq]
  cases neg with
  | false =>
    rw [if_neg Bool.false_ne_true]
    omega
  | true =>
    rw [if_pos rfl]
    omega

theorem negative_ofFields (h : k < 2 ^ 63) : (ofFields neg k).negative = neg := by
  rw [negative, ofFields, UInt64.toNat_ofNat', twoTo_eq]
  cases neg with
  | false =>
    rw [if_neg Bool.false_ne_true, decide_eq_false_iff_not]
    omega
  | true =>
    rw [if_pos rfl, decide_eq_true_eq]
    omega

theorem ofFields_eq (x : Double) : ofFields x.negative x.magnitude = x := by
  have hlt : x.bits.toNat < 2 ^ 64 := x.bits.toNat_lt
  have hbits : x.magnitude + (if x.negative then twoTo 63 else 0) = x.bits.toNat := by
    rw [magnitude, negative, twoTo_eq]
    by_cases hn : x.bits.toNat / 2 ^ 63 = 1
    · rw [decide_eq_true hn, if_pos rfl]
      omega
    · rw [decide_eq_false hn, if_neg Bool.false_ne_true]
      omega
  rw [ofFields, hbits]
  cases x
  simp

theorem neg_ofFields (h : k < 2 ^ 63) : (ofFields neg k).neg = ofFields (!neg) k := by
  rw [Double.neg, negative_ofFields h, magnitude_ofFields h]

theorem neg_inUnit (neg : Bool) (num den : Nat) (e : Int) : (inUnit neg num den e).neg = inUnit (!neg) num den e := by
  have hinf : infinityMagnitude < 2 ^ 63 := by decide +kernel
  rw [inUnit, inUnit]
  generalize inUnits num den e = u
  exact neg_ofFields (lt_of_le_of_lt (Nat.min_le_right _ _) hinf)

theorem neg_ofRatio (neg : Bool) (num den : Nat) : (ofRatio neg num den).neg = ofRatio (!neg) num den := by
  rw [ofRatio, ofRatio]
  split
  next => exact neg_ofFields (by decide)
  next => exact neg_inUnit neg num den _

/-- The fields of a double are its mantissa and its scale. -/
theorem magnitude_eq (x : Double) : x.magnitude = (x.scale + 1074).toNat * 2 ^ 52 + x.mantissa := by
  rw [scale, mantissa, exponentField, fractionField, twoTo_eq]
  by_cases h : x.magnitude / 2 ^ 52 = 0
  · rw [if_pos h, if_pos h]
    omega
  · rw [if_neg h, if_neg h]
    omega

theorem scale_ge (x : Double) : -1074 ≤ x.scale := by
  rw [scale]
  split <;> omega

theorem mantissa_lt (x : Double) : x.mantissa < 2 ^ 53 := by
  rw [mantissa, fractionField, twoTo_eq]
  split <;> omega

/-- Above the least scale a mantissa has all its bits. -/
theorem mantissa_ge (h : -1074 < x.scale) : 2 ^ 52 ≤ x.mantissa := by
  rw [scale] at h
  rw [mantissa, twoTo_eq]
  split at h
  · omega
  · rw [if_neg ‹_›]
    omega

theorem scale_le (h : x.isFinite = true) : x.scale ≤ 971 := by
  have hlt : x.magnitude < infinityMagnitude := of_decide_eq_true h
  rw [infinityMagnitude, twoTo_eq] at hlt
  rw [scale, exponentField, twoTo_eq]
  split <;> omega

/-! ## Integers -/

/-- The integer nearest to a ratio, a tie being settled by the parity of that integer. -/
theorem roundHalfEven_eq (hd : 0 < d) (hlow : 2 * k * d ≤ 2 * n + d) (hhigh : 2 * n ≤ 2 * k * d + d)
    (htie : k % 2 = 1 → 2 * k * d < 2 * n + d ∧ 2 * n < 2 * k * d + d) : roundHalfEven n d = k := by
  have hn := Nat.div_add_mod n d
  have hr := Nat.mod_lt n hd
  rw [roundHalfEven]
  generalize n / d = q at hn ⊢
  generalize n % d = r at hn hr ⊢
  subst hn
  -- the quotient rounds to itself or to its successor, and `k` is within half a unit of it
  have hk : k = q ∨ k = q + 1 := by
    have h₁ : q ≤ k := by
      by_contra hlt
      have := Nat.mul_le_mul_left d (Nat.lt_of_not_le hlt)
      nlinarith
    have h₂ : k ≤ q + 1 := by
      by_contra hlt
      have := Nat.mul_le_mul_left d (Nat.lt_of_not_le hlt)
      nlinarith
    omega
  rcases hk with rfl | rfl
  · have hprod : 2 * k * d = 2 * (d * k) := by ring
    rw [hprod] at hlow hhigh htie
    split
    · rfl
    · split
      · omega
      · split
        · rfl
        · omega
  · have hprod : 2 * (q + 1) * d = 2 * (d * q) + 2 * d := by ring
    rw [hprod] at hlow hhigh htie
    split
    · omega
    · split
      · rfl
      · split <;> omega

theorem roundHalfEven_of_ratio (hd : 0 < d) (hlow : (k : ℚ) - 1 / 2 ≤ n / d) (hhigh : (n / d : ℚ) ≤ k + 1 / 2)
    (htie : k % 2 = 1 → (k : ℚ) - 1 / 2 < n / d ∧ (n / d : ℚ) < k + 1 / 2) : roundHalfEven n d = k := by
  have hpos : (0 : ℚ) < d := by exact_mod_cast hd
  rw [le_div_iff₀ hpos] at hlow
  rw [div_le_iff₀ hpos] at hhigh
  refine roundHalfEven_eq hd ?_ ?_ fun hk => ?_
  · have : (2 * k * d : ℚ) ≤ 2 * n + d := by linarith
    exact_mod_cast this
  · have : (2 * n : ℚ) ≤ 2 * k * d + d := by linarith
    exact_mod_cast this
  · obtain ⟨hlow, hhigh⟩ := htie hk
    rw [lt_div_iff₀ hpos] at hlow
    rw [div_lt_iff₀ hpos] at hhigh
    constructor
    · have : (2 * k * d : ℚ) < 2 * n + d := by linarith
      exact_mod_cast this
    · have : (2 * n : ℚ) < 2 * k * d + d := by linarith
      exact_mod_cast this

/-! ## Units -/

/-- A ratio in units of a power of two. -/
theorem inUnits_ratio (num den : Nat) (e : Int) :
    ((inUnits num den e).1 : ℚ) / (inUnits num den e).2 = num / den / 2 ^ e := by
  rw [inUnits]
  by_cases h : 0 ≤ e
  · obtain ⟨m, rfl⟩ := Int.eq_ofNat_of_zero_le h
    rw [if_pos h, twoTo_eq]
    push_cast
    rw [Int.toNat_natCast, zpow_natCast, div_div]
  · obtain ⟨m, hm⟩ := Int.eq_ofNat_of_zero_le (show 0 ≤ -e by omega)
    rw [if_neg h, twoTo_eq, hm, show e = -(m : Int) by omega, zpow_neg, zpow_natCast]
    push_cast
    rw [Int.toNat_natCast, div_inv_eq_mul]
    ring

theorem inUnits_pos (num : Nat) (hd : 0 < den) (e : Int) : 0 < (inUnits num den e).2 := by
  rw [inUnits]
  split
  · exact Nat.mul_pos hd (Nat.pow_pos (by decide))
  · exact hd

/-- The powers of two around a number. -/
theorem log2_bounds (h : 0 < n) : (2 : ℚ) ^ (Nat.log2 n : Int) ≤ n ∧ (n : ℚ) < 2 ^ ((Nat.log2 n : Int) + 1) := by
  constructor
  · rw [zpow_natCast]
    exact_mod_cast Nat.log2_self_le h.ne'
  · rw [show (Nat.log2 n : Int) + 1 = ((Nat.log2 n + 1 : Nat) : Int) by push_cast; rfl, zpow_natCast]
    exact_mod_cast Nat.lt_log2_self

/-- A ratio has 53 bits in its unit, unless the unit is the least. -/
theorem unitExponent_spec (hnum : 0 < num) (hden : 0 < den) :
    ∃ e, unitExponent num den = max (-1074) e ∧ (2 : ℚ) ^ (52 + e) ≤ num / den ∧ (num / den : ℚ) < 2 ^ (53 + e) := by
  obtain ⟨hn₁, hn₂⟩ := log2_bounds hnum
  obtain ⟨hd₁, hd₂⟩ := log2_bounds hden
  generalize hln : (Nat.log2 num : Int) = ln at hn₁ hn₂
  generalize hld : (Nat.log2 den : Int) = ld at hd₁ hd₂
  have hpos : (0 : ℚ) < den := by exact_mod_cast hden
  -- the lengths of numerator and denominator tell the exponent up to one, and the check tells which it is
  have hhigh : (num / den : ℚ) < 2 ^ (53 + (ln - ld - 52)) := by
    rw [div_lt_iff₀ hpos]
    calc (num : ℚ) < 2 ^ (ln + 1) := hn₂
      _ = 2 ^ (53 + (ln - ld - 52)) * 2 ^ ld := by rw [← zpow_add₀ (by norm_num)]; congr 1; ring
      _ ≤ 2 ^ (53 + (ln - ld - 52)) * den := by gcongr
  have hlow : (2 : ℚ) ^ (51 + (ln - ld - 52)) ≤ num / den := by
    rw [le_div_iff₀ hpos]
    calc (2 : ℚ) ^ (51 + (ln - ld - 52)) * den ≤ 2 ^ (51 + (ln - ld - 52)) * 2 ^ (ld + 1) := by gcongr
      _ = 2 ^ ln := by rw [← zpow_add₀ (by norm_num)]; congr 1; ring
      _ ≤ num := hn₁
  have hunits := inUnits_ratio num den (ln - ld - 52)
  have hdpos := inUnits_pos num hden (ln - ld - 52)
  rw [unitExponent, hln, hld]
  generalize ln - ld - 52 = e at *
  generalize inUnits num den e = u at *
  have hcheck : u.1 < u.2 * twoTo 52 ↔ (num / den : ℚ) < 2 ^ (52 + e) := by
    rw [zpow_add₀ (by norm_num), ← div_lt_iff₀ (by positivity), ← hunits, div_lt_iff₀ (by exact_mod_cast hdpos)]
    rw [twoTo_eq, mul_comm u.2]
    norm_cast
  dsimp only
  by_cases hc : u.1 < u.2 * twoTo 52
  · refine ⟨e - 1, by rw [if_pos hc], ?_, ?_⟩
    · rwa [show 52 + (e - 1) = 51 + e by ring]
    · rw [show 53 + (e - 1) = 52 + e by ring]
      exact hcheck.1 hc
  · refine ⟨e, by rw [if_neg hc], ?_, hhigh⟩
    exact not_lt.1 fun h => hc (hcheck.2 h)

/-! ## The interval of a double -/

/-- Does a number lie in an interval? -/
def Interval.Contains (i : Interval) (v : ℚ) : Prop :=
  if i.closed then (i.low : ℚ) ≤ v ∧ v ≤ i.high else (i.low : ℚ) < v ∧ v < i.high

theorem Interval.holds_iff (i : Interval) (c num : Nat) (hd : 0 < den) :
    i.holds c num den = true ↔ i.Contains (c * num / den) := by
  have hpos : (0 : ℚ) < den := by exact_mod_cast hd
  rw [Interval.holds, Interval.Contains]
  cases i.closed with
  | true =>
    simp only [if_true, Bool.and_eq_true, decide_eq_true_eq]
    rw [le_div_iff₀ hpos, div_le_iff₀ hpos]
    norm_cast
  | false =>
    simp only [Bool.false_eq_true, if_false, Bool.and_eq_true, decide_eq_true_eq]
    rw [lt_div_iff₀ hpos, div_lt_iff₀ hpos]
    norm_cast

theorem Interval.Contains.bounds {i : Interval} {v : ℚ} (h : i.Contains v) : (i.low : ℚ) ≤ v ∧ v ≤ i.high := by
  rw [Contains] at h
  split at h
  · exact h
  · exact ⟨h.1.le, h.2.le⟩

theorem mantissa_pos (hx : x.magnitude ≠ 0) : 0 < x.mantissa := by
  have hm := x.magnitude_eq
  have hs := x.scale_ge
  by_contra h
  have hlow : ¬ -1074 < x.scale := fun hlt => by
    have := mantissa_ge hlt
    omega
  rw [show x.scale = -1074 by omega, show x.mantissa = 0 by omega] at hm
  simp at hm
  exact hx hm

theorem interval_low (x : Double) : x.interval.low =
    if x.mantissa = 2 ^ 52 ∧ -1074 < x.scale then 4 * x.mantissa - 1 else 4 * x.mantissa - 2 := by
  have hnarrow : (x.fractionField = 0 && 1 < x.exponentField : Bool) = true ↔ x.mantissa = 2 ^ 52 ∧ -1074 < x.scale := by
    rw [Bool.and_eq_true, decide_eq_true_eq, decide_eq_true_eq, mantissa, scale, fractionField, exponentField, twoTo_eq]
    split <;> omega
  rw [interval]
  dsimp only
  by_cases h : x.mantissa = 2 ^ 52 ∧ -1074 < x.scale
  · rw [if_pos (hnarrow.2 h), if_pos h]
  · rw [if_neg fun hc => h (hnarrow.1 hc), if_neg h]

/-- What a number in the interval of a double is beside its mantissa. -/
theorem contains_bounds {ρ : ℚ} (h : x.interval.Contains (4 * ρ)) (hm : 0 < x.mantissa) :
    (x.mantissa : ℚ) - 1 / 2 ≤ ρ ∧ ρ ≤ x.mantissa + 1 / 2 ∧
    (x.mantissa % 2 = 1 → (x.mantissa : ℚ) - 1 / 2 < ρ ∧ ρ < x.mantissa + 1 / 2) ∧
    (x.mantissa = 2 ^ 52 → -1074 < x.scale → (x.mantissa : ℚ) - 1 / 4 ≤ ρ) := by
  -- below a power of two the interval reaches down only half as far
  have hlow : (4 * x.mantissa - 2 : ℚ) ≤ x.interval.low := by
    rw [interval_low]
    have hcast : ((4 * x.mantissa - 2 : Nat) : ℚ) = 4 * x.mantissa - 2 := by
      rw [Nat.cast_sub (by omega)]
      push_cast
      ring
    split
    · rw [← hcast]
      exact_mod_cast (by omega : 4 * x.mantissa - 2 ≤ 4 * x.mantissa - 1)
    · rw [hcast]
  have hhigh : (x.interval.high : ℚ) = 4 * x.mantissa + 2 := by
    rw [interval]
    push_cast
    ring
  obtain ⟨h₁, h₂⟩ := h.bounds
  rw [hhigh] at h₂
  refine ⟨by linarith, by linarith, fun hodd => ?_, fun hm52 hs => ?_⟩
  · have hopen : x.interval.closed = false := by
      rw [interval]
      exact decide_eq_false (by omega)
    rw [Interval.Contains, hopen, if_neg Bool.false_ne_true, hhigh] at h
    exact ⟨by linarith, by linarith⟩
  · rw [interval_low, if_pos ⟨hm52, hs⟩, Nat.cast_sub (by omega)] at h₁
    push_cast at h₁
    linarith

/-- The unit of a ratio in the interval of a double is that of the double, or for a power of two the one below. -/
theorem unitExponent_of_contains (hm : 0 < x.mantissa) (hnum : 0 < num) (hden : 0 < den)
    (h : x.interval.Contains (4 * (num / den / 2 ^ x.scale))) : unitExponent num den = x.scale ∨
      unitExponent num den = x.scale - 1 ∧ x.mantissa = 2 ^ 52 ∧ (num / den : ℚ) < 2 ^ (52 + x.scale) ∧
        -1074 < x.scale := by
  obtain ⟨hlow, hhigh, -, hnarrow⟩ := contains_bounds h hm
  obtain ⟨e, he, hge, hlt⟩ := unitExponent_spec hnum hden
  have hscale := x.scale_ge
  have hpow (a b : Int) : (2 : ℚ) ^ (a + b) = 2 ^ a * 2 ^ b := zpow_add₀ (by norm_num) a b
  have hpos : (0 : ℚ) < 2 ^ x.scale := by positivity
  have htop : (num / den : ℚ) < 2 ^ (53 + x.scale) := by
    have hm53 : (x.mantissa : ℚ) + 1 ≤ 2 ^ 53 := by exact_mod_cast x.mantissa_lt
    rw [hpow, ← div_lt_iff₀ hpos]
    refine hhigh.trans_lt ?_
    norm_num at hm53 ⊢
    linarith
  have hle : e ≤ x.scale := by
    have := (zpow_lt_zpow_iff_right₀ (by norm_num : (1 : ℚ) < 2)).1 (hge.trans_lt htop)
    omega
  -- Only below a power of two can the ratio have a smaller unit than the double.
  rcases Int.lt_or_eq_of_le (show max (-1074) e ≤ x.scale by omega) with hbelow | heq
  · right
    have hs : -1074 < x.scale := by omega
    have hr : (num / den : ℚ) < 2 ^ (52 + x.scale) :=
      hlt.trans_le (zpow_le_zpow_right₀ (by norm_num) (by omega))
    have hm52 : x.mantissa = 2 ^ 52 := by
      have hge52 := mantissa_ge hs
      have hr' : (num / den / 2 ^ x.scale : ℚ) < 2 ^ 52 := by
        rw [div_lt_iff₀ hpos]
        rwa [hpow] at hr
      have : (x.mantissa : ℚ) < 2 ^ 52 + 1 := by linarith
      have : x.mantissa < 2 ^ 52 + 1 := by exact_mod_cast this
      omega
    refine ⟨?_, hm52, hr, hs⟩
    have hbottom : (2 : ℚ) ^ (51 + x.scale) < num / den := by
      have := hnarrow hm52 hs
      rw [hm52] at this
      rw [hpow, ← lt_div_iff₀ hpos]
      norm_num at this ⊢
      linarith
    have := (zpow_lt_zpow_iff_right₀ (by norm_num : (1 : ℚ) < 2)).1 (hbottom.trans hlt)
    omega
  · exact .inl (he.trans heq)

/-- A ratio in the rounding interval of a double is rounded to it. -/
theorem ofRatio_of_contains (hfin : x.isFinite = true) (hm : 0 < x.mantissa) (hnum : 0 < num) (hden : 0 < den)
    (h : x.interval.Contains (4 * (num / den / 2 ^ x.scale))) : ofRatio neg num den = ofFields neg x.magnitude := by
  have hmag := x.magnitude_eq
  have hinf : x.magnitude < infinityMagnitude := of_decide_eq_true hfin
  obtain ⟨hlow, hhigh, htie, hnarrow⟩ := contains_bounds h hm
  have hunit := unitExponent_of_contains hm hnum hden h
  rw [ofRatio, if_neg hnum.ne']
  generalize unitExponent num den = e at hunit
  have hratio := inUnits_ratio num den e
  have hdpos := inUnits_pos num hden e
  rw [inUnit]
  generalize inUnits num den e = u at hratio hdpos
  obtain ⟨n, d⟩ := u
  dsimp only at hratio hdpos ⊢
  rcases hunit with rfl | ⟨rfl, hm52, hr, hs⟩
  · rw [← hratio] at hlow hhigh htie
    rw [roundHalfEven_of_ratio hdpos hlow hhigh htie, twoTo_eq, ← hmag, Nat.min_eq_left hinf.le]
  -- in half the unit the ratio is twice as large, and it rounds up to the power of two
  · have hhalf : (n / d : ℚ) = 2 * (num / den / 2 ^ x.scale) := by
      rw [hratio, zpow_sub_one₀ (by norm_num)]
      field_simp
    have hbelow : (num / den / 2 ^ x.scale : ℚ) < 2 ^ 52 := by
      rw [div_lt_iff₀ (by positivity)]
      rwa [zpow_add₀ (by norm_num)] at hr
    have habove := hnarrow hm52 hs
    rw [hm52] at habove
    push_cast at habove
    have hround : roundHalfEven n d = 2 ^ 53 := by
      refine roundHalfEven_of_ratio hdpos ?_ ?_ fun hodd => ?_
      · rw [hhalf]
        push_cast
        linarith
      · rw [hhalf]
        push_cast
        linarith
      · norm_num at hodd
    have hscale := x.scale_ge
    have hsum : (x.scale - 1 + 1074).toNat * 2 ^ 52 + 2 ^ 53 = x.magnitude := by omega
    rw [hround, twoTo_eq, hsum, Nat.min_eq_left hinf.le]

end Double
end Graft
