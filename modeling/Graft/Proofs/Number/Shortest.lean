import Graft.Proofs.Number.Rounding
/-!
# Shortest digits

The search for the shortest decimal comes to an end: on the grid with seventeen digits behind the first, the neighbours of a
value are nearer than half a unit of its last bit. So `Double.shortest` names a decimal in the rounding interval
(`Double.searchGrids_contains`).
-/

namespace Graft
namespace Double

variable {x : Double} {i : Interval} {unit p point : Int} {c : Nat}

/-! ## Grids -/

theorem gridStep_ratio (p unit : Int) : ((gridStep p unit).1 : ℚ) / (gridStep p unit).2 = 10 ^ p / 2 ^ unit := by
  have split (b : Nat) (hb : (b : ℚ) ≠ 0) (e : Int) :
      (((if 0 ≤ e then b ^ e.toNat else 1 : Nat) : ℚ) / (if e < 0 then b ^ (-e).toNat else 1 : Nat)) = (b : ℚ) ^ e := by
    by_cases h : 0 ≤ e
    · obtain ⟨m, rfl⟩ := Int.eq_ofNat_of_zero_le h
      rw [if_pos h, if_neg (by omega)]
      simp
    · obtain ⟨m, hm⟩ := Int.eq_ofNat_of_zero_le (show 0 ≤ -e by omega)
      rw [if_neg h, if_pos (by omega), hm, show e = -(m : Int) by omega, zpow_neg]
      simp
  have h10 := split 10 (by norm_num) p
  have h2 := split 2 (by norm_num) unit
  push_cast at h10 h2
  rw [← h10, ← h2, gridStep]
  simp only [twoTo_eq, tenTo_eq]
  push_cast
  rw [div_div_div_eq]

theorem gridStep_pos (p unit : Int) : 0 < (gridStep p unit).1 ∧ 0 < (gridStep p unit).2 := by
  rw [gridStep]
  simp only [twoTo_eq, tenTo_eq]
  constructor
  · split <;> split <;> simp
  · split <;> split <;> simp

/-- What is found on a grid lies in the interval. -/
theorem onGrid_contains (h : onGrid i unit p = some c) : i.Contains (c * (10 ^ p / 2 ^ unit)) := by
  have hpos := (gridStep_pos p unit).2
  rw [← gridStep_ratio, ← mul_div_assoc, ← i.holds_iff c _ hpos]
  rw [onGrid] at h
  generalize gridStep p unit = step at h ⊢
  obtain ⟨num, den⟩ := step
  dsimp only at h ⊢
  generalize i.value * den / num = lower at h
  split at h
  next both =>
    rw [Bool.and_eq_true] at both
    cases h
    split
    · exact both.1
    · exact both.2
  next =>
    split at h
    next hl =>
      cases h
      exact hl
    next =>
      split at h
      next hu =>
        cases h
        exact hu
      next => cases h

/-- A grid that is fine enough has something in the interval. -/
theorem onGrid_isSome (hlow : i.low < i.value) (hhigh : i.value + 2 ≤ i.high) (hstep : (10 ^ p / 2 ^ unit : ℚ) ≤ 2) :
    (onGrid i unit p).isSome = true := by
  obtain ⟨hnum, hden⟩ := gridStep_pos p unit
  rw [← gridStep_ratio] at hstep
  rw [onGrid]
  generalize gridStep p unit = step at hnum hden hstep ⊢
  obtain ⟨num, den⟩ := step
  dsimp only at hnum hden hstep ⊢
  have hfine : num ≤ 2 * den := by
    rw [div_le_iff₀ (by exact_mod_cast hden)] at hstep
    exact_mod_cast hstep
  have hdiv := Nat.div_add_mod (i.value * den) num
  have hmod := Nat.mod_lt (i.value * den) hnum
  generalize i.value * den / num = lower at hdiv ⊢
  have hl : i.low * den < i.value * den := Nat.mul_lt_mul_of_pos_right hlow hden
  have hh : i.value * den + 2 * den ≤ i.high * den := by
    have := Nat.mul_le_mul_right den hhigh
    rwa [Nat.add_mul] at this
  have hcomm : num * lower = lower * num := Nat.mul_comm _ _
  have hnext : (lower + 1) * num = lower * num + num := by ring
  -- steps this fine do not pass over the interval: the next grid point above the value is still in it
  have hfound : i.holds lower num den = true ∨ i.holds (lower + 1) num den = true := by
    rw [Interval.holds, Interval.holds, hnext]
    by_cases hexact : i.value * den % num = 0
    · left
      have : lower * num = i.value * den := by omega
      rw [this]
      cases i.closed <;> simp <;> omega
    · right
      cases i.closed <;> simp <;> omega
  rcases hfound with hf | hf
  · rw [hf]
    cases i.holds (lower + 1) num den <;> rfl
  · rw [hf]
    cases i.holds lower num den <;> rfl

/-! ## The search -/

/-- The search stops at the first grid on which something is found, if one within reach has it. -/
theorem searchGrids_found {fuel count k : Nat} (hk : k < fuel) (h : (onGrid i unit (point - (count + k : Nat))).isSome = true) :
    onGrid i unit (searchGrids i unit point fuel count).2 = some (searchGrids i unit point fuel count).1 := by
  induction fuel generalizing count k with
  | zero => omega
  | succ fuel ih =>
    rw [searchGrids]
    cases hc : onGrid i unit (point - count) with
    | some c => exact hc
    | none =>
      cases k with
      | zero => simp [hc] at h
      | succ k =>
        refine ih (k := k) (by omega) ?_
        rwa [show count + 1 + k = count + (k + 1) by omega]

/-! ## The decimal point -/

/-- The logarithm of two is between `(a - 1) / b` and `a / b`, so that a product with it is hardly more than its floor. -/
theorem pow_guess {a b : Nat} (hb : 0 < b) (hlow : 2 ^ b ≤ 10 ^ a) (hhigh : 10 ^ a ≤ 10 * 2 ^ b) {l : Int} (hl : l ≤ b) :
    (10 : ℚ) ^ (l * a / b - 1) ≤ 2 ^ l := by
  have hdiv : l * a / b * b ≤ l * a := Int.ediv_mul_le _ (by omega)
  rcases Int.le_total 0 l with h | h
  · obtain ⟨m, rfl⟩ := Int.eq_ofNat_of_zero_le h
    have hg : 0 ≤ (m : Int) * a / b := Int.ediv_nonneg (by positivity) (by omega)
    generalize (m : Int) * a / b = g at hdiv hg
    obtain ⟨k, rfl⟩ := Int.eq_ofNat_of_zero_le hg
    have hle : k * b ≤ m * a := by exact_mod_cast hdiv
    have hm : m ≤ b := by exact_mod_cast hl
    -- both sides to the power `b`, where the quotient no longer rounds
    have hpow : (10 ^ k) ^ b ≤ (10 * 2 ^ m) ^ b :=
      calc (10 ^ k) ^ b = 10 ^ (k * b) := by rw [← pow_mul]
        _ ≤ 10 ^ (m * a) := Nat.pow_le_pow_right (by decide) hle
        _ = (10 ^ a) ^ m := by rw [← pow_mul, mul_comm]
        _ ≤ (10 * 2 ^ b) ^ m := Nat.pow_le_pow_left hhigh m
        _ = 10 ^ m * (2 ^ m) ^ b := by rw [mul_pow, ← pow_mul, ← pow_mul, mul_comm b]
        _ ≤ 10 ^ b * (2 ^ m) ^ b := Nat.mul_le_mul_right _ (Nat.pow_le_pow_right (by decide) hm)
        _ = (10 * 2 ^ m) ^ b := by rw [mul_pow]
    have hbase := (Nat.pow_le_pow_iff_left hb.ne').1 hpow
    rw [zpow_sub_one₀ (by norm_num), zpow_natCast, zpow_natCast, ← div_eq_mul_inv, div_le_iff₀ (by norm_num), mul_comm]
    exact_mod_cast hbase
  · obtain ⟨m, hm⟩ := Int.eq_ofNat_of_zero_le (show 0 ≤ -l by omega)
    have hg : l * a / b ≤ 0 := Int.ediv_nonpos_of_nonpos_of_neg (by nlinarith) (by omega)
    generalize l * a / b = g at hdiv hg
    obtain ⟨k, hk⟩ := Int.eq_ofNat_of_zero_le (show 0 ≤ -g by omega)
    obtain rfl : l = -m := by omega
    obtain rfl : g = -k := by omega
    have hle : m * a ≤ k * b := by
      have : (m * a : Int) ≤ k * b := by linarith
      exact_mod_cast this
    have hpow : (2 ^ m) ^ b ≤ (10 ^ k) ^ b :=
      calc (2 ^ m) ^ b = (2 ^ b) ^ m := by rw [← pow_mul, ← pow_mul, mul_comm]
        _ ≤ (10 ^ a) ^ m := Nat.pow_le_pow_left hlow m
        _ = 10 ^ (m * a) := by rw [← pow_mul, mul_comm]
        _ ≤ 10 ^ (k * b) := Nat.pow_le_pow_right (by decide) hle
        _ = (10 ^ k) ^ b := by rw [← pow_mul]
    have hbase := (Nat.pow_le_pow_iff_left hb.ne').1 hpow
    calc (10 : ℚ) ^ (-(k : Int) - 1) ≤ 10 ^ (-(k : Int)) := zpow_le_zpow_right₀ (by norm_num) (by omega)
      _ ≤ 2 ^ (-(m : Int)) := by
        rw [zpow_neg, zpow_neg, zpow_natCast, zpow_natCast]
        exact inv_anti₀ (by positivity) (by exact_mod_cast hbase)

/-- The point is not behind the first digit of the value. -/
theorem decimalPoint_le (hv : 0 < i.value) (hl : (Nat.log2 i.value : Int) + unit ≤ 100000) :
    (10 : ℚ) ^ (decimalPoint i unit - 1) ≤ i.value * 2 ^ unit := by
  have hreaches {p : Int} (h : decide ((gridStep p unit).1 ≤ i.value * (gridStep p unit).2) = true) :
      (10 : ℚ) ^ p ≤ i.value * 2 ^ unit := by
    have hpos := (gridStep_pos p unit).2
    rw [← div_le_iff₀ (by positivity), ← gridStep_ratio p unit, div_le_iff₀ (by exact_mod_cast hpos)]
    exact_mod_cast of_decide_eq_true h
  have hguess : (10 : ℚ) ^ (((Nat.log2 i.value : Int) + unit) * 30103 / 100000 - 1) ≤ i.value * 2 ^ unit := by
    refine (pow_guess (a := 30103) (b := 100000) (by decide) (by decide +kernel) (by decide +kernel) hl).trans ?_
    rw [zpow_add₀ (by norm_num)]
    have := (log2_bounds hv).1
    gcongr
  rw [decimalPoint]
  dsimp only
  generalize ((Nat.log2 i.value : Int) + unit) * 30103 / 100000 = guess at hguess
  split
  next h =>
    rw [show guess + 2 - 1 = guess + 1 by ring]
    exact hreaches h
  next =>
    split
    next h =>
      rw [show guess + 1 - 1 = guess by ring]
      exact hreaches h
    next => exact hguess

/-! ## Shortest decimals -/

/-- The decimal that is found lies in the interval of the double. -/
theorem searchGrids_contains (hfin : x.isFinite = true) (hm : 0 < x.mantissa) :
    let found := searchGrids x.interval (x.scale - 2) (decimalPoint x.interval (x.scale - 2)) 18 1
    0 < found.1 ∧ x.interval.Contains (found.1 * (10 ^ found.2 / 2 ^ (x.scale - 2))) := by
  have hvalue : x.interval.value = 4 * x.mantissa := rfl
  have hhigh : x.interval.high = 4 * x.mantissa + 2 := rfl
  have hlow : x.interval.low < 4 * x.mantissa ∧ 0 < x.interval.low := by
    rw [interval_low]
    split <;> omega
  have hm53 := x.mantissa_lt
  have hscale := scale_le hfin
  generalize hpoint : decimalPoint x.interval (x.scale - 2) = point
  have hlog : (Nat.log2 x.interval.value : Int) + (x.scale - 2) ≤ 100000 := by
    have : Nat.log2 x.interval.value < 55 := by
      rw [hvalue, Nat.log2_lt (by omega)]
      omega
    omega
  have hle : (10 : ℚ) ^ (point - 1) ≤ x.interval.value * 2 ^ (x.scale - 2) := by
    rw [← hpoint]
    exact decimalPoint_le (by omega) hlog
  -- with 17 digits behind the first one, the grid is finer than the interval is wide
  have hstep : (10 ^ (point - (1 + 17 : Nat)) / 2 ^ (x.scale - 2) : ℚ) ≤ 2 := by
    have hsmall : (x.interval.value : ℚ) ≤ 2 * 10 ^ 17 := by
      rw [hvalue]
      exact_mod_cast (by omega : 4 * x.mantissa ≤ 2 * 10 ^ 17)
    rw [div_le_iff₀ (by positivity), show point - ((1 + 17 : Nat) : Int) = point - 1 - 17 by push_cast; ring,
      zpow_sub₀ (by norm_num), div_le_iff₀ (by positivity)]
    refine hle.trans ?_
    calc (x.interval.value : ℚ) * 2 ^ (x.scale - 2) ≤ 2 * 10 ^ 17 * 2 ^ (x.scale - 2) := by gcongr
      _ = 2 * 2 ^ (x.scale - 2) * 10 ^ (17 : Int) := by
        norm_cast
        ring
  have hsome := onGrid_isSome (by rw [hvalue]; exact hlow.1) (by rw [hvalue, hhigh]) hstep
  have hfound := searchGrids_found (by decide : 17 < 18) hsome
  have hin := onGrid_contains hfound
  refine ⟨?_, hin⟩
  by_contra hzero
  have hbound := hin.bounds.1
  rw [show (searchGrids x.interval (x.scale - 2) point 18 1).1 = 0 by omega] at hbound
  have : (0 : ℚ) < x.interval.low := by exact_mod_cast hlow.2
  simp at hbound
  omega

end Double
end Graft
