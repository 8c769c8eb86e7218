import Graft.Proofs.Number.Rounding
/-!
# The nearest double

What rounding gives is said without the bits of a double: `IsNearest` compares a number with all finite doubles. A number has
one unit, and in that unit one nearest integer, ties to even (`Rounds`); these two are the fields of the double that
`Double.ofRatio` gives (`ofRatio_of_rounds`), and no other double is nearer (`Rounds.isNearest`).
-/

namespace Graft.Double

variable {x y : Double} {v : ℚ} {e : Int} {num den n d m : Nat} {neg : Bool}

/-- The number that a finite double is. -/
def toRat (x : Double) : ℚ := (if x.negative then -1 else 1) * (x.mantissa * 2 ^ x.scale)

/-- The double that a number, which is not negative, is rounded to: none is nearer, and of two that are as near it has the even
mantissa. From half a unit behind the greatest double on, that is infinity. -/
def IsNearest (v : ℚ) (x : Double) : Prop :=
  x.negative = false ∧ if v < (2 ^ 53 - 1 / 2) * 2 ^ (971 : Int) then
    x.isFinite = true ∧ ∀ y : Double, y.isFinite = true →
      |v - x.toRat| ≤ |v - y.toRat| ∧ (|v - x.toRat| = |v - y.toRat| → y.toRat = x.toRat ∨ x.mantissa % 2 = 0)
  else x = infinity false

/-! ## Doubles by unit and mantissa -/

/-- The double with `m` units of `2^e`; beyond the greatest double, infinity. -/
def ofUnits (neg : Bool) (e : Int) (m : Nat) : Double :=
  ofFields neg (min ((e + 1074).toNat * twoTo 52 + m) infinityMagnitude)

theorem fields_of_magnitude (he : -1074 ≤ e) (hm : m < 2 ^ 53) (hfull : -1074 < e → 2 ^ 52 ≤ m)
    (h : x.magnitude = (e + 1074).toNat * 2 ^ 52 + m) : x.mantissa = m ∧ x.scale = e := by
  rw [mantissa, scale, exponentField, fractionField, twoTo_eq, h]
  split <;> omega

theorem infinityMagnitude_lt : infinityMagnitude < 2 ^ 63 := by decide +kernel

theorem magnitude_ofUnits (neg : Bool) (h : (e + 1074).toNat * 2 ^ 52 + m < infinityMagnitude) :
    (ofUnits neg e m).magnitude = (e + 1074).toNat * 2 ^ 52 + m := by
  rw [ofUnits, twoTo_eq, Nat.min_eq_left h.le]
  exact magnitude_ofFields (h.trans infinityMagnitude_lt)

theorem negative_ofUnits : (ofUnits neg e m).negative = neg :=
  negative_ofFields (lt_of_le_of_lt (Nat.min_le_right _ _) infinityMagnitude_lt)

theorem ofUnits_infinite (h : infinityMagnitude ≤ (e + 1074).toNat * 2 ^ 52 + m) : ofUnits neg e m = infinity neg := by
  rw [ofUnits, twoTo_eq, Nat.min_eq_right h, infinity]

/-- The double after one with all bits of the mantissa set is that with twice the unit and only the first bit set. -/
theorem ofUnits_carry (he : -1074 ≤ e) : ofUnits neg e (2 ^ 53) = ofUnits neg (e + 1) (2 ^ 52) := by
  have hnext : (e + 1074).toNat * 2 ^ 52 + 2 ^ 53 = (e + 1 + 1074).toNat * 2 ^ 52 + 2 ^ 52 := by omega
  rw [ofUnits, ofUnits, twoTo_eq, hnext]

theorem finite_ofUnits (neg : Bool) (h : (e + 1074).toNat * 2 ^ 52 + m < infinityMagnitude) : (ofUnits neg e m).isFinite = true := by
  rw [isFinite, magnitude_ofUnits neg h]
  exact decide_eq_true h

/-- A unit and a mantissa make a double, if the mantissa is full or the unit the least. -/
structure Fits (e : Int) (m : Nat) : Prop where
  least : -1074 ≤ e
  full : -1074 < e → 2 ^ 52 ≤ m
  carry : m ≤ 2 ^ 53

theorem toRat_ofUnits (hfits : Fits e m) (h : (e + 1074).toNat * 2 ^ 52 + m < infinityMagnitude) :
    (ofUnits false e m).toRat = m * 2 ^ e ∧ (m % 2 = 0 → (ofUnits false e m).mantissa % 2 = 0) := by
  rcases hfits.carry.lt_or_eq with hlt | rfl
  · obtain ⟨hmantissa, hscale⟩ := fields_of_magnitude hfits.least hlt hfits.full (magnitude_ofUnits false h)
    rw [toRat, negative_ofUnits, hmantissa, hscale, if_neg Bool.false_ne_true, one_mul]
    exact ⟨rfl, id⟩
  · have hleast := hfits.least
    rw [ofUnits_carry hleast]
    have hnext : (e + 1074).toNat * 2 ^ 52 + 2 ^ 53 = (e + 1 + 1074).toNat * 2 ^ 52 + 2 ^ 52 := by omega
    rw [hnext] at h
    obtain ⟨hmantissa, hscale⟩ :=
      fields_of_magnitude (by omega) (by norm_num) (fun _ => le_refl _) (magnitude_ofUnits false h)
    rw [toRat, negative_ofUnits, hmantissa, hscale, if_neg Bool.false_ne_true, one_mul, zpow_add_one₀ (by norm_num)]
    refine ⟨?_, fun _ => by norm_num⟩
    push_cast
    ring

/-! ## Rounding to the unit -/

/-- `2^e` is the unit of a number, and `m` the nearest integer to it in that unit, ties to even. -/
structure Rounds (v : ℚ) (e : Int) (m : Nat) : Prop where
  least : -1074 ≤ e
  below : v < 2 ^ (53 + e)
  full : -1074 < e → 2 ^ (52 + e) ≤ v
  low : (m : ℚ) - 1 / 2 ≤ v / 2 ^ e
  high : v / 2 ^ e ≤ m + 1 / 2
  tie : m % 2 = 1 → (m : ℚ) - 1 / 2 < v / 2 ^ e ∧ v / 2 ^ e < m + 1 / 2

theorem roundHalfEven_spec (n : Nat) (hd : 0 < d) : (roundHalfEven n d : ℚ) - 1 / 2 ≤ n / d ∧
    (n / d : ℚ) ≤ roundHalfEven n d + 1 / 2 ∧
    (roundHalfEven n d % 2 = 1 → (roundHalfEven n d : ℚ) - 1 / 2 < n / d ∧ (n / d : ℚ) < roundHalfEven n d + 1 / 2) := by
  have hpos : (0 : ℚ) < d := by exact_mod_cast hd
  have hn := Nat.div_add_mod n d
  have hr := Nat.mod_lt n hd
  -- over the quotient and the remainder, in naturals
  have key : 2 * (d * roundHalfEven n d) ≤ 2 * n + d ∧ 2 * n ≤ 2 * (d * roundHalfEven n d) + d ∧
      (roundHalfEven n d % 2 = 1 → 2 * (d * roundHalfEven n d) < 2 * n + d ∧ 2 * n < 2 * (d * roundHalfEven n d) + d) := by
    rw [roundHalfEven]
    generalize n / d = q at hn ⊢
    generalize n % d = r at hn hr ⊢
    have hnext : d * (q + 1) = d * q + d := by ring
    split
    · omega
    · split
      · omega
      · split <;> omega
  generalize roundHalfEven n d = k at key
  obtain ⟨h₁, h₂, h₃⟩ := key
  have h₁ : (2 * (d * k) : ℚ) ≤ 2 * n + d := by exact_mod_cast h₁
  have h₂ : (2 * n : ℚ) ≤ 2 * (d * k) + d := by exact_mod_cast h₂
  refine ⟨?_, ?_, fun hodd => ?_⟩
  · rw [le_div_iff₀ hpos]
    linarith
  · rw [div_le_iff₀ hpos]
    linarith
  · obtain ⟨h₃, h₄⟩ := h₃ hodd
    have h₃ : (2 * (d * k) : ℚ) < 2 * n + d := by exact_mod_cast h₃
    have h₄ : (2 * n : ℚ) < 2 * (d * k) + d := by exact_mod_cast h₄
    rw [lt_div_iff₀ hpos, div_lt_iff₀ hpos]
    constructor <;> linarith

theorem exists_rounds (hnum : 0 < num) (hden : 0 < den) : ∃ e m, Rounds (num / den) e m := by
  obtain ⟨e, -, hge, hlt⟩ := unitExponent_spec hnum hden
  have hratio := inUnits_ratio num den (max (-1074) e)
  obtain ⟨hlow, hhigh, htie⟩ := roundHalfEven_spec (inUnits num den (max (-1074) e)).1
    (inUnits_pos num hden (max (-1074) e))
  rw [hratio] at hlow hhigh htie
  refine ⟨max (-1074) e, _, by omega, hlt.trans_le ?_, fun h => ?_, hlow, hhigh, htie⟩
  · exact zpow_le_zpow_right₀ (by norm_num) (by omega)
  · rwa [show max (-1074) e = e by omega]

theorem Rounds.unitExponent_eq (hnum : 0 < num) (hden : 0 < den) (h : Rounds (num / den) e m) :
    unitExponent num den = e := by
  obtain ⟨e', he', hge, hlt⟩ := unitExponent_spec hnum hden
  have hle : e' ≤ e := by
    have := (zpow_lt_zpow_iff_right₀ (by norm_num : (1 : ℚ) < 2)).1 (hge.trans_lt h.below)
    omega
  have hleast := h.least
  rcases hleast.eq_or_lt with heq | hlt'
  · omega
  · have := (zpow_lt_zpow_iff_right₀ (by norm_num : (1 : ℚ) < 2)).1 ((h.full hlt').trans_lt hlt)
    omega

/-- A ratio is rounded to its nearest integer in its unit. -/
theorem ofRatio_of_rounds (hnum : 0 < num) (hden : 0 < den) (h : Rounds (num / den) e m) :
    ofRatio neg num den = ofUnits neg e m := by
  have hratio := inUnits_ratio num den e
  have hround : roundHalfEven (inUnits num den e).1 (inUnits num den e).2 = m := by
    refine roundHalfEven_of_ratio (inUnits_pos num hden e) ?_ ?_ ?_ <;> rw [hratio]
    · exact h.low
    · exact h.high
    · exact h.tie
  rw [ofRatio, if_neg hnum.ne', h.unitExponent_eq hnum hden, inUnit, ofUnits]
  dsimp only
  rw [hround]

/-- Rounding does not depend on how a ratio is written. -/
theorem ofRatio_congr {num' den' : Nat} (hden : 0 < den) (hden' : 0 < den') (h : (num : ℚ) / den = num' / den') :
    ofRatio neg num den = ofRatio neg num' den' := by
  have hpos : (0 : ℚ) < den := by exact_mod_cast hden
  have hpos' : (0 : ℚ) < den' := by exact_mod_cast hden'
  rcases Nat.eq_zero_or_pos num with rfl | hnum
  · have hzero : num' = 0 := by
      rw [Nat.cast_zero, zero_div, eq_comm, div_eq_zero_iff] at h
      exact_mod_cast h.resolve_right hpos'.ne'
    rw [hzero, ofRatio, ofRatio, if_pos rfl, if_pos rfl]
  · have hnum' : 0 < num' := by
      rw [Nat.pos_iff_ne_zero]
      rintro rfl
      rw [Nat.cast_zero, zero_div, div_eq_zero_iff] at h
      exact hnum.ne' (by exact_mod_cast h.resolve_right hpos.ne')
    obtain ⟨e, m, hrounds⟩ := exists_rounds hnum hden
    rw [ofRatio_of_rounds hnum hden hrounds, ofRatio_of_rounds hnum' hden' (h ▸ hrounds)]

/-! ## No other double is nearer -/

theorem Rounds.units_lt (h : Rounds v e m) : v / 2 ^ e < 2 ^ 53 := by
  have hv := h.below
  rwa [zpow_add₀ two_ne_zero, zpow_ofNat, ← div_lt_iff₀ (by positivity)] at hv

theorem Rounds.units_ge (h : Rounds v e m) (he : -1074 < e) : 2 ^ 52 ≤ v / 2 ^ e := by
  have hv := h.full he
  rwa [zpow_add₀ two_ne_zero, zpow_ofNat, ← le_div_iff₀ (by positivity)] at hv

theorem Rounds.fits (h : Rounds v e m) : Fits e m where
  least := h.least
  full he := by
    have hm : (2 ^ 52 : ℚ) < m + 1 := by linarith [h.units_ge he, h.high]
    exact Nat.lt_succ_iff.1 (by exact_mod_cast hm)
  carry := by
    have hm : (m : ℚ) < 2 ^ 53 + 1 := by linarith [h.units_lt, h.low]
    exact Nat.lt_succ_iff.1 (by exact_mod_cast hm)

/-- A number is rounded to infinity from half a unit behind the greatest double on. -/
theorem Rounds.finite_iff (h : Rounds v e m) :
    v < (2 ^ 53 - 1 / 2) * 2 ^ (971 : Int) ↔ (e + 1074).toNat * 2 ^ 52 + m < infinityMagnitude := by
  obtain ⟨-, hfull, hcarry⟩ := h.fits
  have hinf : infinityMagnitude = 2047 * 2 ^ 52 := rfl
  have hpos : (0 : ℚ) < 2 ^ (971 : Int) := by positivity
  rw [hinf]
  rcases lt_trichotomy e 971 with he | rfl | he
  · refine iff_of_true ?_ (by omega)
    calc v < 2 ^ (53 + e) := h.below
      _ ≤ 2 ^ (52 + (971 : Int)) := zpow_le_zpow_right₀ (by norm_num) (by omega)
      _ = 2 ^ 52 * 2 ^ (971 : Int) := by rw [zpow_add₀ two_ne_zero, zpow_ofNat]
      _ < (2 ^ 53 - 1 / 2) * 2 ^ (971 : Int) := mul_lt_mul_of_pos_right (by norm_num) hpos
  · rw [← div_lt_iff₀ hpos]
    constructor
    · intro hv
      have hm : (m : ℚ) < 2 ^ 53 := by linarith [h.low]
      have hm : m < 2 ^ 53 := by exact_mod_cast hm
      omega
    · intro hm
      rcases (show m ≤ 2 ^ 53 - 1 by omega).eq_or_lt with rfl | hlt
      · have hcast : ((2 ^ 53 - 1 : Nat) : ℚ) = 2 ^ 53 - 1 := by norm_num
        have htie := (h.tie (by norm_num)).2
        rw [hcast] at htie
        linarith
      · have hm : (m : ℚ) + 2 ≤ 2 ^ 53 := by exact_mod_cast (by omega : m + 2 ≤ 2 ^ 53)
        linarith [h.high]
  · refine iff_of_false (not_lt.2 ?_) (by have := hfull (by omega); omega)
    calc (2 ^ 53 - 1 / 2 : ℚ) * 2 ^ (971 : Int)
        ≤ 2 ^ 53 * 2 ^ (971 : Int) := mul_le_mul_of_nonneg_right (by norm_num) hpos.le
      _ = 2 ^ (53 + (971 : Int)) := by rw [zpow_add₀ two_ne_zero, zpow_ofNat _ 53]
      _ ≤ 2 ^ (52 + e) := zpow_le_zpow_right₀ (by norm_num) (by omega)
      _ ≤ v := h.full (by omega)

/-- Among the multiples of its unit, the nearest one to a number. -/
theorem Rounds.nearest_multiple (h : Rounds v e m) (k : Int) :
    |v - m * 2 ^ e| ≤ |v - k * 2 ^ e| ∧ (|v - m * 2 ^ e| = |v - k * 2 ^ e| → k = m ∨ m % 2 = 0) := by
  have hpos : (0 : ℚ) < 2 ^ e := by positivity
  have hscale (c : ℚ) : |v - c * 2 ^ e| = |v / 2 ^ e - c| * 2 ^ e := by
    rw [← abs_of_pos hpos, ← abs_mul, abs_of_pos hpos, sub_mul, div_mul_cancel₀ _ hpos.ne']
  rw [hscale, hscale, mul_le_mul_iff_left₀ hpos, mul_left_inj' hpos.ne']
  have hlow := h.low
  have hhigh := h.high
  have hhalf : |v / 2 ^ e - m| ≤ 1 / 2 := abs_le.2 ⟨by linarith, by linarith⟩
  rcases eq_or_ne k m with rfl | hne
  · exact ⟨le_refl _, fun _ => .inl rfl⟩
  have hfar : 1 / 2 ≤ |v / 2 ^ e - k| := by
    rcases lt_or_gt_of_ne hne with hlt | hgt
    · have hk : (k : ℚ) + 1 ≤ m := by exact_mod_cast hlt
      exact le_trans (by linarith) (le_abs_self _)
    · have hk : (m : ℚ) + 1 ≤ k := by exact_mod_cast hgt
      exact le_trans (by linarith) (neg_le_abs _)
  refine ⟨hhalf.trans hfar, fun heq => .inr ?_⟩
  by_contra hodd
  obtain ⟨hlow, hhigh⟩ := h.tie (by omega)
  have : |v / 2 ^ e - m| < 1 / 2 := abs_lt.2 ⟨by linarith, by linarith⟩
  linarith

/-- A double is a multiple of the unit of a number, or too small to be nearest to it. -/
theorem Rounds.nearest (h : Rounds v e m) (y : Double) :
    |v - m * 2 ^ e| ≤ |v - y.toRat| ∧ (|v - m * 2 ^ e| = |v - y.toRat| → y.toRat = m * 2 ^ e ∨ m % 2 = 0) := by
  rcases le_or_gt e y.scale with hle | hlt
  · obtain ⟨k, hk⟩ : ∃ k : Int, y.toRat = k * 2 ^ e := by
      obtain ⟨j, hj⟩ := Int.eq_ofNat_of_zero_le (show 0 ≤ y.scale - e by omega)
      refine ⟨(if y.negative then -1 else 1) * (y.mantissa * 2 ^ j), ?_⟩
      rw [toRat, show y.scale = j + e by omega, zpow_add₀ (by norm_num), zpow_natCast]
      push_cast
      ring
    obtain ⟨hle, heq⟩ := h.nearest_multiple k
    rw [hk]
    exact ⟨hle, fun hd => (heq hd).imp_left fun hkm => by rw [hkm, Int.cast_natCast]⟩
  · have hfull := h.full (by have := y.scale_ge; omega)
    have hsmall : |y.toRat| < 2 ^ (52 + e) := by
      have hsign : |(if y.negative then -1 else 1 : ℚ)| = 1 := by split <;> simp
      have hm : (y.mantissa : ℚ) < 2 ^ 53 := by exact_mod_cast y.mantissa_lt
      rw [toRat, abs_mul, hsign, one_mul, abs_of_nonneg (by positivity)]
      calc (y.mantissa : ℚ) * 2 ^ y.scale < 2 ^ 53 * 2 ^ y.scale := by gcongr
        _ = 2 ^ (53 + y.scale) := by rw [zpow_add₀ (by norm_num)]; norm_num
        _ ≤ 2 ^ (52 + e) := zpow_le_zpow_right₀ (by norm_num) (by omega)
    have hstrict : |v - m * 2 ^ e| < |v - y.toRat| := by
      have hpower : ((2 ^ 52 : Int) : ℚ) * 2 ^ e = 2 ^ (52 + e) := by rw [zpow_add₀ (by norm_num)]; norm_num
      refine (h.nearest_multiple (2 ^ 52)).1.trans_lt ?_
      rw [hpower, abs_of_nonneg (by linarith)]
      exact lt_of_lt_of_le (by linarith [le_abs_self y.toRat]) (le_abs_self _)
    exact ⟨hstrict.le, fun heq => absurd heq hstrict.ne⟩

/-- The double that a number is rounded to is the nearest one. -/
theorem Rounds.isNearest (h : Rounds v e m) : IsNearest v (ofUnits false e m) := by
  refine ⟨negative_ofUnits, ?_⟩
  split
  next hv =>
    have hfinite := h.finite_iff.1 hv
    obtain ⟨hrat, heven⟩ := toRat_ofUnits h.fits hfinite
    refine ⟨finite_ofUnits false hfinite, fun y _ => ?_⟩
    obtain ⟨hle, heq⟩ := h.nearest y
    rw [hrat]
    exact ⟨hle, fun hd => (heq hd).imp_right heven⟩
  next hv => exact ofUnits_infinite (not_lt.1 fun hfinite => hv (h.finite_iff.2 hfinite))

/-! ## Natural numbers -/

section Naturals
variable {a b j k : Nat}

theorem ofNat_of_rounds (hn : 0 < n) (h : Rounds n e m) : ofNat n = ofUnits false e m :=
  ofRatio_of_rounds hn Nat.one_pos (by rwa [Nat.cast_one, div_one])

theorem isNearest_ofNat (n : Nat) : IsNearest n (ofNat n) := by
  rcases Nat.eq_zero_or_pos n with rfl | hn
  · have hzero : Rounds ((0 : Nat) : ℚ) (-1074) 0 :=
      ⟨by omega, by positivity, fun h => absurd h (by omega), by norm_num, by norm_num, nofun⟩
    exact hzero.isNearest
  · obtain ⟨e, m, h⟩ := exists_rounds hn Nat.one_pos
    rw [Nat.cast_one, div_one] at h
    rw [ofNat_of_rounds hn h]
    exact h.isNearest

/-- A number of 53 bits and zeros, with less than half of the unit of the last bit. -/
theorem rounds_add (hfull : 2 ^ 52 ≤ m) (hlt : m < 2 ^ 53) (hd : 2 * d < 2 ^ j) : Rounds (m * 2 ^ j + d : Nat) j m := by
  have hpos : (0 : ℚ) < 2 ^ (j : Int) := by positivity
  have hunits : ((m * 2 ^ j + d : Nat) : ℚ) / 2 ^ (j : Int) = m + d / 2 ^ (j : Int) := by
    rw [zpow_natCast] at *
    push_cast
    field_simp
  have hpart : (0 : ℚ) ≤ d / 2 ^ (j : Int) ∧ (d / 2 ^ (j : Int) : ℚ) < 1 / 2 := by
    refine ⟨by positivity, ?_⟩
    have hd : (2 * d : ℚ) < 2 ^ j := by exact_mod_cast hd
    rw [div_lt_iff₀ hpos, zpow_natCast]
    linarith
  have hm₁ : (2 ^ 52 : ℚ) ≤ m := by exact_mod_cast hfull
  have hm₂ : (m : ℚ) + 1 ≤ 2 ^ 53 := by exact_mod_cast hlt
  refine ⟨by omega, ?_, fun _ => ?_, ?_, ?_, fun _ => ?_⟩
  · rw [zpow_add₀ two_ne_zero, zpow_ofNat _ 53, ← div_lt_iff₀ hpos, hunits]
    linarith
  · rw [zpow_add₀ two_ne_zero, zpow_ofNat _ 52, ← le_div_iff₀ hpos, hunits]
    linarith
  all_goals
    rw [hunits]
  · linarith
  · linarith
  · exact ⟨by linarith, by linarith⟩

theorem ofNat_add (hfull : 2 ^ 52 ≤ m) (hlt : m < 2 ^ 53) (hd : 2 * d < 2 ^ j) : ofNat (m * 2 ^ j + d) = ofUnits false j m :=
  ofNat_of_rounds (Nat.add_pos_left (Nat.mul_pos (by omega) (Nat.pow_pos (by decide))) d) (rounds_add hfull hlt hd)

/-- A number of at most 53 bits and zeros is a number of its own units. -/
theorem Rounds.exact (hm : m < 2 ^ 53) (h : Rounds (m * 2 ^ j : Nat) e k) :
    k < 2 ^ 53 ∧ (k : ℚ) * 2 ^ e = (m * 2 ^ j : Nat) := by
  have hv : ((m * 2 ^ j : Nat) : ℚ) = m * 2 ^ (j : Int) := by push_cast; rw [zpow_natCast]
  -- the unit is not greater than the last zero, so that nothing is left to round
  have hle : e ≤ j := by
    by_contra hgt
    have hfull := h.full (by omega)
    have hm : (m : ℚ) < 2 ^ 53 := by exact_mod_cast hm
    have hbelow : ((m * 2 ^ j : Nat) : ℚ) < 2 ^ (53 + (j : Int)) := by
      rw [hv, zpow_add₀ two_ne_zero, zpow_ofNat _ 53]
      exact mul_lt_mul_of_pos_right hm (by positivity)
    have := (zpow_lt_zpow_iff_right₀ (by norm_num : (1 : ℚ) < 2)).1 (hfull.trans_lt hbelow)
    omega
  obtain ⟨i, hi⟩ := Int.eq_ofNat_of_zero_le (show 0 ≤ (j : Int) - e by omega)
  have hunits : ((m * 2 ^ j : Nat) : ℚ) / 2 ^ e = (m * 2 ^ i : Nat) := by
    rw [hv, div_eq_iff (by positivity), show (j : Int) = i + e by omega, zpow_add₀ two_ne_zero, zpow_natCast]
    push_cast
    ring
  have hk : k = m * 2 ^ i := by
    have hlow := h.low
    have hhigh := h.high
    rw [hunits] at hlow hhigh
    have h₁ : (k : ℚ) < (m * 2 ^ i : Nat) + 1 := by linarith
    have h₂ : ((m * 2 ^ i : Nat) : ℚ) < k + 1 := by linarith
    have h₁ : k < m * 2 ^ i + 1 := by exact_mod_cast h₁
    have h₂ : m * 2 ^ i < k + 1 := by exact_mod_cast h₂
    omega
  refine ⟨?_, by rw [hk, ← hunits, div_mul_cancel₀ _ (by positivity)]⟩
  have := h.units_lt
  rw [hunits, ← hk] at this
  exact_mod_cast this

theorem Rounds.finite (h : Rounds v e m) (hm : m < 2 ^ 53) (hv : v < 2 ^ (1024 : Int)) :
    (e + 1074).toNat * 2 ^ 52 + m < infinityMagnitude := by
  have he : e ≤ 971 := by
    by_contra hgt
    have := (zpow_lt_zpow_iff_right₀ (by norm_num : (1 : ℚ) < 2)).1 ((h.full (by omega)).trans_lt hv)
    omega
  rw [show infinityMagnitude = 2047 * 2 ^ 52 from rfl]
  omega

/-- A number of at most 53 bits and zeros is a double, if it is not too great. -/
theorem ofNat_exact (hm : m < 2 ^ 53) (hlt : m * 2 ^ j < 2 ^ 1024) : (ofNat (m * 2 ^ j)).isFinite = true ∧
    (ofNat (m * 2 ^ j)).negative = false ∧ (ofNat (m * 2 ^ j)).toRat = (m * 2 ^ j : Nat) := by
  rcases Nat.eq_zero_or_pos (m * 2 ^ j) with hzero | hpos
  · rw [hzero]
    refine ⟨by decide +kernel, by decide +kernel, ?_⟩
    rw [toRat, show (ofNat 0).mantissa = 0 by decide +kernel]
    simp
  obtain ⟨e, k, h⟩ := exists_rounds hpos Nat.one_pos
  rw [Nat.cast_one, div_one] at h
  obtain ⟨hk, hexact⟩ := h.exact hm
  have hfinite := h.finite hk (by rw [zpow_ofNat]; exact_mod_cast hlt)
  rw [ofNat_of_rounds hpos h]
  exact ⟨finite_ofUnits false hfinite, negative_ofUnits, (toRat_ofUnits h.fits hfinite).1.trans hexact⟩

/-- The second half of `mulAdd`. -/
def addNat (x : Double) (b : Nat) : Double :=
  if x.isFinite then
    ofRatio false ((inUnits x.mantissa 1 (-x.scale)).1 + b * (inUnits x.mantissa 1 (-x.scale)).2)
      (inUnits x.mantissa 1 (-x.scale)).2
  else x

theorem inUnits_toRat (hneg : x.negative = false) (n : Nat) :
    ((inUnits (x.mantissa * n) 1 (-x.scale)).1 : ℚ) / (inUnits (x.mantissa * n) 1 (-x.scale)).2 = x.toRat * n := by
  rw [inUnits_ratio, toRat, hneg, if_neg Bool.false_ne_true, zpow_neg]
  push_cast
  field_simp

theorem mulAdd_eq (hfin : x.isFinite = true) (hneg : x.negative = false) (hx : x.toRat = a) (b : Nat) :
    x.mulAdd n b = (ofNat (a * n)).addNat b := by
  have hproduct : ofRatio false (inUnits (x.mantissa * n) 1 (-x.scale)).1 (inUnits (x.mantissa * n) 1 (-x.scale)).2 =
      ofNat (a * n) := by
    refine ofRatio_congr (inUnits_pos _ Nat.one_pos _) Nat.one_pos ?_
    rw [inUnits_toRat hneg, hx]
    push_cast
    ring
  rw [mulAdd, if_pos hfin]
  exact congrArg (addNat · b) hproduct

theorem addNat_eq (hfin : x.isFinite = true) (hneg : x.negative = false) (hx : x.toRat = a) (b : Nat) :
    x.addNat b = ofNat (a + b) := by
  have hpos := inUnits_pos x.mantissa Nat.one_pos (-x.scale)
  have hratio := inUnits_toRat hneg 1
  rw [Nat.mul_one, hx, Nat.cast_one, mul_one] at hratio
  rw [addNat, if_pos hfin]
  refine ofRatio_congr hpos Nat.one_pos ?_
  have hpos : (0 : ℚ) < (inUnits x.mantissa 1 (-x.scale)).2 := by exact_mod_cast hpos
  push_cast
  rw [add_div, hratio, mul_div_cancel_right₀ _ hpos.ne', div_one]

theorem addNat_infinite (h : x.isFinite = false) (b : Nat) : x.addNat b = x := by
  rw [addNat, h, if_neg Bool.false_ne_true]

theorem mulAdd_infinite (h : x.isFinite = false) (a b : Nat) : x.mulAdd a b = x := by
  rw [mulAdd, h, if_neg Bool.false_ne_true]
  dsimp only
  rw [h, if_neg Bool.false_ne_true]

theorem units_lt {i : Nat} (hm : m < 2 ^ 53) (hi : 53 + j ≤ i) : m * 2 ^ j < 2 ^ i :=
  calc m * 2 ^ j < 2 ^ 53 * 2 ^ j := Nat.mul_lt_mul_of_pos_right hm (Nat.pow_pos (by decide))
    _ = 2 ^ (53 + j) := (Nat.pow_add ..).symm
    _ ≤ 2 ^ i := Nat.pow_le_pow_right (by decide) hi

/-- Below `2^53` a digit is added exactly. -/
theorem mulAdd_ofNat (hn : n < 2 ^ 53) (hk : k ≤ 971) (b : Nat) : (ofNat n).mulAdd (2 ^ k) b = ofNat (n * 2 ^ k + b) := by
  obtain ⟨hfin, hneg, hrat⟩ := ofNat_exact hn (units_lt (i := 1024) hn (j := 0) (by decide))
  obtain ⟨hfin', hneg', hrat'⟩ := ofNat_exact hn (units_lt (i := 1024) hn (Nat.add_le_add_left hk 53))
  rw [Nat.pow_zero, Nat.mul_one] at hfin hneg hrat
  rw [mulAdd_eq hfin hneg hrat, addNat_eq hfin' hneg' hrat']

theorem finite_ofUnits_iff (hfull : 2 ^ 52 ≤ m) (hm : m < 2 ^ 53) :
    (j : Int) + 1074 < 2046 ↔ ((j : Int) + 1074).toNat * 2 ^ 52 + m < infinityMagnitude := by
  rw [show infinityMagnitude = 2047 * 2 ^ 52 from rfl]
  omega

/-- With all the bits of a double in use, a further digit is lost. -/
theorem mulAdd_ofUnits (hfull : 2 ^ 52 ≤ m) (hm : m < 2 ^ 53) (hj : 0 < j) (hb : b < 2 ^ k) :
    (ofUnits false j m).mulAdd (2 ^ k) b = ofUnits false (j + k : Nat) m := by
  have hinfinite {i : Nat} (hi : 971 < i) : ofUnits false i m = infinity false :=
    ofUnits_infinite (not_lt.1 fun h => absurd ((finite_ofUnits_iff hfull hm).2 h) (by omega))
  have hinf : (infinity false).isFinite = false := by decide +kernel
  have hnat (i : Nat) : ofNat (m * 2 ^ i) = ofUnits false i m :=
    ofNat_add hfull hm (d := 0) (by rw [Nat.mul_zero]; exact Nat.pow_pos (by decide))
  rcases Nat.lt_or_ge 971 j with hgt | hle
  · rw [hinfinite hgt, hinfinite (by omega), mulAdd_infinite hinf]
  obtain ⟨hfin, hneg, hrat⟩ := ofNat_exact hm (units_lt (i := 1024) hm (Nat.add_le_add_left hle 53))
  have hproduct : ofNat (m * 2 ^ j * 2 ^ k) = ofUnits false (j + k : Nat) m := by rw [Nat.mul_assoc, ← Nat.pow_add, hnat]
  rw [← hnat, mulAdd_eq hfin hneg hrat, hproduct]
  rcases Nat.lt_or_ge 971 (j + k) with hgt | hle'
  · rw [hinfinite hgt, addNat_infinite hinf]
  · obtain ⟨hfin', hneg', hrat'⟩ := ofNat_exact hm (units_lt (i := 1024) hm (Nat.add_le_add_left hle' 53))
    have hlost : 2 * b < 2 ^ (j + k) :=
      calc 2 * b < 2 * 2 ^ k := by omega
        _ = 2 ^ (1 + k) := by rw [Nat.pow_add, Nat.pow_one]
        _ ≤ 2 ^ (j + k) := Nat.pow_le_pow_right (by decide) (by omega)
    rw [← hnat, addNat_eq hfin' hneg' hrat', ofNat_add hfull hm hlost, hnat]

/-! ### Numbers in two parts -/

/-- Halfway between two doubles, the lower one with an even mantissa: 54 bits that end in 01, and zeros. -/
def Halfway (n : Nat) : Prop := ∃ h s, 2 ^ 51 ≤ h ∧ h < 2 ^ 52 ∧ n = (4 * h + 1) * 2 ^ s

theorem Halfway.ge (h : Halfway n) : 2 ^ 53 ≤ n := by
  obtain ⟨i, s, hi, -, rfl⟩ := h
  exact le_trans (by omega) (Nat.le_mul_of_pos_right _ (Nat.pow_pos (by decide)))

/-- Rounding of a natural number in a unit of two or more. -/
theorem rounds_nat_iff : Rounds n (j + 1 : Nat) m ↔
    (2 ^ (53 + j) ≤ n ∧ n < 2 ^ (54 + j)) ∧ 2 * m * 2 ^ j ≤ n + 2 ^ j ∧
    n ≤ (2 * m + 1) * 2 ^ j ∧ (m % 2 = 1 → 2 * m * 2 ^ j < n + 2 ^ j ∧ n < (2 * m + 1) * 2 ^ j) := by
  have hpos : (0 : ℚ) < 2 ^ ((j + 1 : Nat) : Int) := by positivity
  have hpow : (2 : ℚ) ^ ((j + 1 : Nat) : Int) = 2 * 2 ^ j := by rw [zpow_natCast, pow_succ, mul_comm]
  have hbelow : (n : ℚ) < 2 ^ (53 + ((j + 1 : Nat) : Int)) ↔ n < 2 ^ (54 + j) := by
    rw [show 53 + ((j + 1 : Nat) : Int) = (54 + j : Nat) by push_cast; ring, zpow_natCast]
    norm_cast
  have hfull : (2 : ℚ) ^ (52 + ((j + 1 : Nat) : Int)) ≤ n ↔ 2 ^ (53 + j) ≤ n := by
    rw [show 52 + ((j + 1 : Nat) : Int) = (53 + j : Nat) by push_cast; ring, zpow_natCast]
    norm_cast
  have hlow : (m : ℚ) - 1 / 2 ≤ n / 2 ^ ((j + 1 : Nat) : Int) ↔ 2 * m * 2 ^ j ≤ n + 2 ^ j := by
    rw [le_div_iff₀ hpos, hpow, ← Nat.cast_le (α := ℚ)]
    push_cast
    constructor <;> intro h <;> linarith
  have hlow' : (m : ℚ) - 1 / 2 < n / 2 ^ ((j + 1 : Nat) : Int) ↔ 2 * m * 2 ^ j < n + 2 ^ j := by
    rw [lt_div_iff₀ hpos, hpow, ← Nat.cast_lt (α := ℚ)]
    push_cast
    constructor <;> intro h <;> linarith
  have hhigh : (n : ℚ) / 2 ^ ((j + 1 : Nat) : Int) ≤ m + 1 / 2 ↔ n ≤ (2 * m + 1) * 2 ^ j := by
    rw [div_le_iff₀ hpos, hpow, ← Nat.cast_le (α := ℚ)]
    push_cast
    constructor <;> intro h <;> linarith
  have hhigh' : (n : ℚ) / 2 ^ ((j + 1 : Nat) : Int) < m + 1 / 2 ↔ n < (2 * m + 1) * 2 ^ j := by
    rw [div_lt_iff₀ hpos, hpow, ← Nat.cast_lt (α := ℚ)]
    push_cast
    constructor <;> intro h <;> linarith
  rw [← hbelow, ← hfull, ← hlow, ← hhigh, ← hlow', ← hhigh']
  constructor
  · intro h
    exact ⟨⟨h.full (by omega), h.below⟩, h.low, h.high, h.tie⟩
  · rintro ⟨⟨h₁, h₂⟩, h₃, h₄, h₅⟩
    exact ⟨by omega, h₂, fun _ => h₁, h₃, h₄, h₅⟩

theorem Rounds.exists_unit (h : Rounds n e m) (hn : 2 ^ 53 ≤ n) : ∃ j : Nat, e = (j + 1 : Nat) := by
  have hlow : (2 : ℚ) ^ (53 : Int) ≤ n := by
    rw [zpow_ofNat]
    exact_mod_cast hn
  have := (zpow_lt_zpow_iff_right₀ (by norm_num : (1 : ℚ) < 2)).1 (hlow.trans_lt h.below)
  exact ⟨(e - 1).toNat, by omega⟩

/-- What comes after the lowest bits counts for the rounding of a number only if without it the number is halfway. -/
theorem Rounds.append (h : Rounds n (j + 1 : Nat) m) (hd : d < 2 ^ k) (hhalf : n = (2 * m + 1) * 2 ^ j → d = 0) :
    Rounds (n * 2 ^ k + d : Nat) (j + k + 1 : Nat) m := by
  obtain ⟨⟨hfull, hbelow⟩, hlow, hhigh, htie⟩ := rounds_nat_iff.1 h
  have hpos : 0 < 2 ^ k := Nat.pow_pos (by decide)
  have hle {a b : Nat} (hab : a ≤ b) : a * 2 ^ k ≤ b * 2 ^ k := Nat.mul_le_mul_right _ hab
  have hsucc {b : Nat} (hb : n < b) : n * 2 ^ k + d < b * 2 ^ k :=
    calc n * 2 ^ k + d < n * 2 ^ k + 2 ^ k := by omega
      _ = (n + 1) * 2 ^ k := (Nat.succ_mul ..).symm
      _ ≤ b * 2 ^ k := hle hb
  have hlow' := hle hlow
  rw [Nat.add_mul] at hlow'
  rw [rounds_nat_iff]
  simp only [← Nat.add_assoc, Nat.pow_add _ _ k, ← Nat.mul_assoc]
  refine ⟨⟨(hle hfull).trans (Nat.le_add_right _ _), hsucc hbelow⟩, by omega, ?_, fun hodd => ⟨?_, hsucc (htie hodd).2⟩⟩
  · rcases hhigh.eq_or_lt with heq | hlt
    · rw [hhalf heq, Nat.add_zero]
      exact hle hhigh
    · exact (hsucc hlt).le
  · have hlt := Nat.mul_lt_mul_of_pos_right (htie hodd).1 hpos
    rw [Nat.add_mul] at hlt
    omega

/-- The double below a halfway point is not the nearest one to what is above that point. -/
theorem not_isNearest_of_half (hfull : 2 ^ 52 ≤ m) (hm : m + 1 < 2 ^ 53) (hlow : (2 * m + 1) * 2 ^ j < n)
    (hhigh : n < 2 ^ 1024) : ¬ IsNearest n (ofUnits false (j + 1 : Nat) m) := by
  have hbits (i : Nat) (hi : n < 2 ^ i) : 53 + j < i := by
    have hn : 2 ^ (53 + j) < n :=
      calc 2 ^ (53 + j) = 2 ^ 53 * 2 ^ j := Nat.pow_add ..
        _ ≤ (2 * m + 1) * 2 ^ j := Nat.mul_le_mul_right _ (by omega)
        _ < n := hlow
    exact (Nat.pow_lt_pow_iff_right (by decide)).1 (hn.trans hi)
  have hj := hbits 1024 hhigh
  have hfinite {i : Nat} (hi : i < 2 ^ 53) :
      (((j + 1 : Nat) : Int) + 1074).toNat * 2 ^ 52 + i < infinityMagnitude := by
    rw [show infinityMagnitude = 2047 * 2 ^ 52 from rfl]
    omega
  have hrat {i : Nat} (hfull : 2 ^ 52 ≤ i) (hi : i < 2 ^ 53) :
      (ofUnits false (j + 1 : Nat) i).toRat = 2 * i * 2 ^ j := by
    rw [(toRat_ofUnits ⟨by omega, fun _ => hfull, hi.le⟩ (hfinite hi)).1, zpow_natCast, pow_succ]
    ring
  rintro ⟨-, h⟩
  split at h
  next =>
    have hle := (h.2 (ofUnits false (j + 1 : Nat) (m + 1)) (finite_ofUnits false (hfinite hm))).1
    rw [hrat hfull (by omega), hrat (by omega) hm] at hle
    have hpos : (0 : ℚ) < 2 ^ j := by positivity
    have hlow : (2 * m + 1 : ℚ) * 2 ^ j < n := by exact_mod_cast hlow
    rw [abs_of_pos (by linarith), le_abs] at hle
    push_cast at hle
    rcases hle with hle | hle <;> linarith
  next =>
    have hfin := finite_ofUnits false (hfinite (show m < 2 ^ 53 by omega))
    rw [h] at hfin
    exact absurd hfin (by decide +kernel)

/-- Beyond the doubles infinity is the nearest one. -/
theorem isNearest_infinity {v : ℚ} (h : 2 ^ 53 * 2 ^ (971 : Int) ≤ v) : IsNearest v (infinity false) := by
  refine ⟨by decide +kernel, ?_⟩
  rw [if_neg]
  refine not_lt.2 (le_trans ?_ h)
  exact mul_le_mul_of_nonneg_right (by norm_num) (by positivity)

theorem Rounds.halfway_iff (h : Rounds n (j + 1 : Nat) m) : Halfway n ↔ n = (2 * m + 1) * 2 ^ j := by
  obtain ⟨⟨hfull, hbelow⟩, hlow, hhigh, htie⟩ := rounds_nat_iff.1 h
  have hpos : 0 < 2 ^ j := Nat.pow_pos (by decide)
  constructor
  · rintro ⟨i, s, hi₁, hi₂, rfl⟩
    have hs : s = j := by
      have h₁ : (4 * i + 1) * 2 ^ s < 2 ^ (54 + s) := by
        rw [Nat.pow_add]
        exact Nat.mul_lt_mul_of_pos_right (by omega) (Nat.pow_pos (by decide))
      have h₂ : 2 ^ (53 + s) ≤ (4 * i + 1) * 2 ^ s := by
        rw [Nat.pow_add]
        exact Nat.mul_le_mul_right _ (by omega)
      have := (Nat.pow_lt_pow_iff_right (show 1 < 2 by decide)).1 (hfull.trans_lt h₁)
      have := (Nat.pow_lt_pow_iff_right (show 1 < 2 by decide)).1 (h₂.trans_lt hbelow)
      omega
    subst hs
    rw [← Nat.succ_mul, Nat.mul_le_mul_right_iff hpos] at hlow
    rw [Nat.mul_le_mul_right_iff hpos] at hhigh
    rw [← Nat.succ_mul, Nat.mul_lt_mul_right hpos] at htie
    have hm : m = 2 * i := by omega
    rw [hm]
    ring
  · rintro rfl
    have heven : m % 2 = 0 := by
      by_contra hodd
      exact absurd (htie (by omega)).2 (lt_irrefl _)
    rw [Nat.pow_add, Nat.mul_le_mul_right_iff hpos] at hfull
    rw [Nat.pow_add, Nat.mul_lt_mul_right hpos] at hbelow
    refine ⟨m / 2, j, by omega, by omega, ?_⟩
    congr 1
    omega

/-- A number beyond the doubles is still beyond them without its last digits. -/
theorem isNearest_overflow (hbelow : n < 2 ^ (54 + j)) (hfull : 2 ^ 52 ≤ m) (hd : d < 2 ^ k)
    (hge : 2 ^ 1024 ≤ n * 2 ^ k + d) : IsNearest (n * 2 ^ k + d : Nat) (ofUnits false (j + k + 1 : Nat) m) := by
  have hbits (i : Nat) (hi : 2 ^ i ≤ n * 2 ^ k + d) : i < 54 + j + k := by
    have hlt : n * 2 ^ k + d < 2 ^ (54 + j + k) :=
      calc n * 2 ^ k + d < (n + 1) * 2 ^ k := by rw [Nat.succ_mul]; omega
        _ ≤ 2 ^ (54 + j) * 2 ^ k := Nat.mul_le_mul_right _ hbelow
        _ = 2 ^ (54 + j + k) := (Nat.pow_add ..).symm
    exact (Nat.pow_lt_pow_iff_right (by decide)).1 (hi.trans_lt hlt)
  have hj := hbits 1024 hge
  rw [ofUnits_infinite]
  · have hcast (i : Nat) (hi : 2 ^ i ≤ n * 2 ^ k + d) : (2 : ℚ) ^ (i : Int) ≤ (n * 2 ^ k + d : Nat) := by
      rw [zpow_natCast]
      exact_mod_cast hi
    refine isNearest_infinity (le_of_eq_of_le ?_ (hcast 1024 hge))
    rw [show ((1024 : Nat) : Int) = 53 + 971 from rfl, zpow_add₀ two_ne_zero, zpow_ofNat _ 53]
  · rw [show infinityMagnitude = 2047 * 2 ^ 52 from rfl]
    omega

/-- A number is rounded without its last digits to the double nearest to it, but for a tie that these digits settle. -/
theorem Rounds.isNearest_append_iff (h : Rounds n (j + 1 : Nat) m) (hd : d < 2 ^ k) :
    IsNearest (n * 2 ^ k + d : Nat) (ofUnits false (j + k + 1 : Nat) m) ↔
      ¬ (Halfway n ∧ d ≠ 0 ∧ n * 2 ^ k + d < 2 ^ 1024) := by
  obtain ⟨⟨hfull, hbelow⟩, -, -, htie⟩ := rounds_nat_iff.1 h
  rw [h.halfway_iff]
  by_cases hhalf : n = (2 * m + 1) * 2 ^ j ∧ d ≠ 0
  · obtain ⟨hn, hd0⟩ := hhalf
    have hm : m + 1 < 2 ^ 53 := by
      have heven : ¬ m % 2 = 1 := fun hodd => absurd hn (htie hodd).2.ne
      rw [hn, Nat.pow_add, Nat.mul_lt_mul_right (Nat.pow_pos (by decide))] at hbelow
      omega
    have hm52 := h.fits.full (by omega)
    rcases Nat.lt_or_ge (n * 2 ^ k + d) (2 ^ 1024) with hlt | hge
    · refine iff_of_false (not_isNearest_of_half hm52 hm ?_ hlt) (not_not_intro ⟨hn, hd0, hlt⟩)
      rw [hn, Nat.pow_add, Nat.mul_assoc]
      omega
    · exact iff_of_true (isNearest_overflow hbelow hm52 hd hge) fun hlost => absurd hlost.2.2 (not_lt.2 hge)
  · refine iff_of_true (h.append hd fun hn => ?_).isNearest fun hlost => hhalf ⟨hlost.1, hlost.2.1⟩
    exact not_not.1 fun hd0 => hhalf ⟨hn, hd0⟩

end Naturals

end Graft.Double
