import Graft.Proofs.Edit.Merge
import Graft.Proofs.Number.Nearest
import Graft.Proofs.Source.Data
import Mathlib.Data.Nat.Cast.Field
/-!
# Numbers as keys

The key of a number is its text. That of an integer is read back as the integer as far as it fits 64 bits
(`Double.keyText_reads_back`); beyond that all integers of one sign have one text, and a member with one of them as its key is
taken for each other one (`Store.number_keys_iff`).
-/

namespace Graft

/-- Integers that have one key: they are equal, or both are beyond the same bound of 64 bits. -/
def SameKey (n m : Int) : Prop := n = m ∨ 2 ^ 63 ≤ n ∧ 2 ^ 63 ≤ m ∨ n ≤ -2 ^ 63 ∧ m ≤ -2 ^ 63

instance (n m : Int) : Decidable (SameKey n m) := inferInstanceAs (Decidable (_ ∨ _ ∨ _))

/-- An integer in the range of 64 bits; the nearest bound for any other. -/
def saturated (n : Int) : Int := max (-2 ^ 63) (min n (2 ^ 63 - 1))

namespace Double

variable {x y : Double} {n m : Int}

/-! ## Integers that are doubles -/

theorem toInt?_spec (h : x.toInt? = some n) : x.isFinite = true ∧
    ∃ k : Nat, n = (if x.negative then -(k : Int) else k) ∧ (k : ℚ) = x.mantissa * 2 ^ x.scale := by
  simp only [toInt?] at h
  split at h
  · cases h
  next hfin =>
    split at h
    next hdiv =>
      refine ⟨by simpa using hfin, _, (Option.some.inj h).symm, ?_⟩
      have hpos := inUnits_pos x.mantissa Nat.one_pos (-x.scale)
      rw [Nat.cast_div (Nat.dvd_of_mod_eq_zero hdiv) (by exact_mod_cast hpos.ne'), inUnits_ratio, Nat.cast_one, div_one,
        zpow_neg, div_inv_eq_mul]
    next => cases h

theorem eq_ofUnits (hfin : x.isFinite = true) : x = ofUnits x.negative x.scale x.mantissa := by
  rw [ofUnits, twoTo_eq, ← magnitude_eq, Nat.min_eq_left (of_decide_eq_true hfin).le, ofFields_eq]

/-- An integer that is a double is rounded to that double. -/
theorem ofInt_toInt? (h : x.toInt? = some n) (hn : n ≠ 0) : ofInt n = x := by
  obtain ⟨hfin, k, hk, hvalue⟩ := toInt?_spec h
  have hpos : 0 < k := by
    rw [Nat.pos_iff_ne_zero]
    rintro rfl
    exact hn (by simpa using hk)
  have hrounds : Rounds (k / (1 : Nat)) x.scale x.mantissa := by
    rw [Nat.cast_one, div_one, hvalue]
    have hunits : (x.mantissa : ℚ) * 2 ^ x.scale / 2 ^ x.scale = x.mantissa := mul_div_cancel_right₀ _ (by positivity)
    refine ⟨x.scale_ge, ?_, fun h => ?_, ?_, ?_, fun _ => ?_⟩
    · rw [zpow_add₀ two_ne_zero]
      exact mul_lt_mul_of_pos_right (by exact_mod_cast x.mantissa_lt) (by positivity)
    · rw [zpow_add₀ two_ne_zero]
      exact mul_le_mul_of_nonneg_right (by exact_mod_cast mantissa_ge h) (by positivity)
    · rw [hunits]
      linarith
    · rw [hunits]
      linarith
    · rw [hunits]
      constructor <;> linarith
  have hneg : decide (n < 0) = x.negative := by
    cases hx : x.negative <;> simp [hk, hx]
    omega
  have habs : n.natAbs = k := by
    cases hx : x.negative <;> simp [hk, hx]
  rw [ofInt, habs, hneg, ofRatio_of_rounds hpos Nat.one_pos hrounds, ← eq_ofUnits hfin]

/-! ## The text of a key -/

theorem decimalValue?_minus {ds : List Char} (hds : Decimal.AreDigits ds) :
    Source.decimalValue? ('-' :: ds) = some (ofDecimal true (digitsValue ds) 0) := by
  have hword (w : String) (hw : ∀ c ∈ w.toList.head?, Unicode.isAsciiDigit c = false) (hne : w.toList ≠ []) :
      ds ≠ w.toList := by
    rintro rfl
    obtain ⟨c, cs, hcs⟩ := List.exists_cons_of_ne_nil hne
    have hc := hds.2 c (by simp [hcs])
    rw [hw c (by simp [hcs])] at hc
    cases hc
  have hends : Source.EndsDigits [] := nofun
  obtain ⟨htake, hdrop⟩ := Source.takeWhile_digits hds.2 hends
  rw [List.append_nil] at htake hdrop
  simp only [Source.decimalValue?, hword "inf" (by simp; decide) (by simp), hword "infinity" (by simp; decide) (by simp),
    hword "nan" (by simp; decide) (by simp), htake, hdrop, ofParts]
  simp [hds.1]

/-- An integer by its sign and its digits. -/
theorem toList_toString (k : Int) :
    (toString k).toList = if k < 0 then '-' :: Nat.toDigits 10 k.natAbs else Nat.toDigits 10 k.natAbs := by
  split
  next hneg =>
    obtain ⟨a, rfl⟩ : ∃ a : Nat, k = -(a + 1 : Nat) := ⟨(-k - 1).toNat, by omega⟩
    rw [Json.toList_toString_neg, Int.natAbs_neg, Int.natAbs_natCast]
  next hnonneg =>
    obtain ⟨a, rfl⟩ := Int.eq_ofNat_of_zero_le (Int.not_lt.1 hnonneg)
    rw [Json.toList_toString_natCast, Int.natAbs_natCast]

/-- An integer is read back from its digits as the double nearest to it. -/
theorem decimalValue?_toString {k : Int} (hk : k.natAbs ≤ 2 ^ 64) :
    Source.decimalValue? (toString k).toList = some (ofInt k) := by
  rw [toList_toString, ofInt]
  split
  next hneg =>
    rw [decimalValue?_minus ⟨toDigits_ne_nil _, isAsciiDigit_toDigits _⟩, digitsValue_toDigits, ofDecimal_integer true hk,
      decide_eq_true hneg]
  next hnonneg =>
    obtain ⟨d, hd, hvalue, htext⟩ := toDigits_spec hk
    rw [← htext, Decimal.decimalValue?_text hd, hvalue, decide_eq_false hnonneg]

theorem keyText_eq (h : x.toInt? = some n) (hn : n.natAbs < 10 ^ 21) : x.keyText = toString (saturated n) := by
  rw [keyText, h]
  exact if_pos hn

theorem toString_inj {k l : Int} : toString k = toString l ↔ k = l := by
  refine ⟨fun h => ?_, fun h => h ▸ rfl⟩
  have htext := congrArg String.toList h
  have hdigits {a b : Nat} (h : Nat.toDigits 10 a = Nat.toDigits 10 b) : a = b := by
    rw [← digitsValue_toDigits a, h, digitsValue_toDigits]
  have hminus (a : Nat) (cs : List Char) : Nat.toDigits 10 a ≠ '-' :: cs := fun heq =>
    absurd (isAsciiDigit_toDigits a '-' (by rw [heq]; exact List.mem_cons_self)) (by decide)
  rw [toList_toString, toList_toString] at htext
  split at htext <;> split at htext
  · have := hdigits (List.cons.inj htext).2
    omega
  · exact absurd htext.symm (hminus _ _)
  · exact absurd htext (hminus _ _)
  · have := hdigits htext
    omega

/-- The integer next to the upper bound is no double. -/
theorem toInt?_ne_bound (h : x.toInt? = some n) : n ≠ 2 ^ 63 - 1 := by
  rintro rfl
  have hx := ofInt_toInt? h (by decide)
  rw [← hx, show (ofInt (2 ^ 63 - 1)).toInt? = some (2 ^ 63) by decide +kernel] at h
  cases h

theorem keyText_eq_iff (hx : x.toInt? = some n) (hn : n.natAbs < 10 ^ 21) (hy : y.toInt? = some m) (hm : m.natAbs < 10 ^ 21) :
    x.keyText = y.keyText ↔ SameKey n m := by
  have hn' := toInt?_ne_bound hx
  have hm' := toInt?_ne_bound hy
  rw [keyText_eq hx hn, keyText_eq hy hm, toString_inj, saturated, saturated, SameKey]
  omega

/-- The text of an integer is read back as the integer exactly if it is no greater than `2^63`. -/
theorem keyText_reads_back (h : x.toInt? = some n) (hn : n.natAbs < 10 ^ 21) :
    Source.decimalValue? x.keyText.toList = some (if n = 0 then .zero else x) ↔ n.natAbs ≤ 2 ^ 63 := by
  have hbound : (saturated n).natAbs ≤ 2 ^ 64 := by
    rw [saturated]
    omega
  rw [keyText_eq h hn, decimalValue?_toString hbound, Option.some.injEq]
  by_cases hzero : n = 0
  · subst hzero
    rw [if_pos rfl]
    decide +kernel
  rw [if_neg hzero]
  constructor
  · -- What a bound is read back as is not beyond it.
    intro hback
    by_contra hlarge
    have hread := hback ▸ h
    rcases lt_or_ge n 0 with hneg | hpos
    · have hsat : saturated n = -2 ^ 63 := by
        rw [saturated]
        omega
      rw [hsat, show (ofInt (-2 ^ 63)).toInt? = some (-2 ^ 63) by decide +kernel] at hread
      cases hread
      exact hlarge (by decide)
    · have hsat : saturated n = 2 ^ 63 - 1 := by
        rw [saturated]
        omega
      rw [hsat, show (ofInt (2 ^ 63 - 1)).toInt? = some (2 ^ 63) by decide +kernel] at hread
      cases hread
      exact hlarge (by decide)
  · intro hsmall
    rcases eq_or_ne n (2 ^ 63) with rfl | hne
    · rw [← ofInt_toInt? h hzero]
      decide +kernel
    · have hsat : saturated n = n := by
        rw [saturated]
        omega
      rw [hsat, ofInt_toInt? h hzero]

end Double

/-! ## Looking a number up -/

namespace Store

variable {s : Store} {o p q new : NodeId} {x y : Double} {n : Int} {key : NodeId → Option Int}

/-- The key of a member is a number. -/
inductive NumberKeyed (s : Store) (p : NodeId) (x : Double) : Prop
  | property {key value : NodeId} {kind : PropertyKind} {computed shorthand method : Bool} {raw : String} :
    s.get p = .property key value kind computed shorthand method → s.get key = .literal (.number x) raw → NumberKeyed s p x
  | method {key value : NodeId} {kind : MethodKind} {computed isStatic : Bool} {raw : String} :
    s.get p = .methodDefinition key value kind computed isStatic → s.get key = .literal (.number x) raw → NumberKeyed s p x
  | field {key : NodeId} {value : Option NodeId} {computed isStatic : Bool} {raw : String} :
    s.get p = .propertyDefinition key value computed isStatic → s.get key = .literal (.number x) raw → NumberKeyed s p x

theorem NumberKeyed.memberKey? (h : s.NumberKeyed p x) : s.memberKey? p = some x.keyText := by
  cases h with
  | property hp hkey | method hp hkey | field hp hkey => simp [Store.memberKey?, hp, Store.keyName?, hkey]

/-- The integers below `10^21` that are keys in an object; the key of no other member is the text of an integer. -/
def IntegerKeyed (s : Store) (o : NodeId) (key : NodeId → Option Int) : Prop := ∀ p ∈ s.members o,
  (∃ x k, key p = some k ∧ s.NumberKeyed p x ∧ x.toInt? = some k ∧ k.natAbs < 10 ^ 21) ∨
  (key p = none ∧ ∀ k : Int, s.memberKey? p ≠ some (toString k))

/-- The first member whose key is taken for an integer. -/
def sameKeyed? (s : Store) (o : NodeId) (key : NodeId → Option Int) (n : Int) : Option NodeId :=
  (s.members o).find? fun p => (key p).any fun k => decide (SameKey k n)

theorem findProperty?_integer (hkeys : s.IntegerKeyed o key) (hx : x.toInt? = some n) (hn : n.natAbs < 10 ^ 21) :
    s.findProperty? o x.keyText = s.sameKeyed? o key n := by
  rw [findProperty?, sameKeyed?, ← List.head?_filter, ← List.head?_filter]
  refine congrArg List.head? (List.filter_congr fun p hp => ?_)
  rcases hkeys p hp with ⟨y, k, hk, hkeyed, hy, hsmall⟩ | ⟨hk, hother⟩
  · rw [hk, hkeyed.memberKey?, Option.any_some]
    simp [Double.keyText_eq_iff hy hsmall hx hn]
  · rw [hk, Option.any_none, Double.keyText_eq hx hn]
    exact decide_eq_false (hother _)

/-- What a member with an integer as its key does to an object that it is merged into. -/
theorem mergeMembers_integer {e : Editor} (hkeys : e.store.IntegerKeyed o key) (hq : e.store.NumberKeyed q x)
    (hx : x.toInt? = some n) (hn : n.natAbs < 10 ^ 21) (hnew : e.store.propertyValue? q = some new) (depth : Nat) :
    e.mergeMembers o (depth + 1) [q] =
      match (e.store.sameKeyed? o key n).bind fun p => (e.store.propertyValue? p).map fun old => (p, old) with
      | some (p, old) =>
        if e.store.isObject old && e.store.isObject new then e.mergeMembers old depth (e.store.members new)
        else e.setPropertyValue p new
      | none => e.appendMember o q := by
  have hend (e : Editor) (depth : Nat) : e.mergeMembers o depth [] = e := by cases depth <;> rfl
  rw [Editor.mergeMembers, hend, Editor.counterpart?, hnew, hq.memberKey?]
  simp only [Option.bind_eq_bind, Option.bind_some, findProperty?_integer hkeys hx hn]
  cases e.store.sameKeyed? o key n with
  | none => rfl
  | some p =>
    simp only [Option.bind_some]
    cases e.store.propertyValue? p <;> rfl

/-- The text of an integer below `10^21` is read back as the integer exactly up to `2^63`. Another one has the same text exactly
if it is the same or both are beyond the same bound of 64 bits, and so it is with all that looks a member up or merges one in:
whatever is found has a key that the bounds do not tell apart from the integer, and the first such member is found. -/
theorem number_keys_iff (hx : x.toInt? = some n) (hn : n.natAbs < 10 ^ 21) :
    (Source.decimalValue? x.keyText.toList = some (if n = 0 then .zero else x) ↔ n.natAbs ≤ 2 ^ 63) ∧
    (∀ (y : Double) m, y.toInt? = some m → m.natAbs < 10 ^ 21 → (x.keyText = y.keyText ↔ SameKey n m)) ∧
    ∀ (s : Store) o key, s.IntegerKeyed o key →
      s.findProperty? o x.keyText = s.sameKeyed? o key n ∧
      s.hasKeys o (.names [x.keyText]) = (s.sameKeyed? o key n).isSome ∧
      (∀ expected, s.hasValues o [(x.keyText, expected)] =
        ((s.sameKeyed? o key n).bind s.propertyValue?).any fun value => s.hasValue value expected) ∧
      ∀ (e : Editor) q new depth, e.store = s → s.NumberKeyed q x → s.propertyValue? q = some new →
        e.mergeMembers o (depth + 1) [q] =
          match (s.sameKeyed? o key n).bind fun p => (s.propertyValue? p).map fun old => (p, old) with
          | some (p, old) =>
            if s.isObject old && s.isObject new then e.mergeMembers old depth (s.members new) else e.setPropertyValue p new
          | none => e.appendMember o q := by
  refine ⟨Double.keyText_reads_back hx hn, fun y m hy hm => Double.keyText_eq_iff hx hn hy hm, fun s o key hkeys => ?_⟩
  have hfound := findProperty?_integer hkeys hx hn
  refine ⟨hfound, ?_, fun expected => ?_, ?_⟩
  · rw [hasKeys, List.all_cons, List.all_nil, Bool.and_true, hfound]
  · rw [hasValues, hasValues, hfound, Bool.and_true]
    cases (s.sameKeyed? o key n).bind s.propertyValue? <;> rfl
  · rintro e q new depth rfl hq hnew
    exact mergeMembers_integer hkeys hq hx hn hnew depth

/-- In an object with the keys `a` and `5`, the number five finds its own member. -/
theorem five_number_key :
    let five : Double := ⟨0x4014000000000000⟩
    let null : Tree := .mk (.literal .null "null")
    let s := ofTree (.mk (.objectExpression [Source.plainProperty (.named "a") null,
      Source.plainProperty (.other (.mk (.literal (.number five) "5"))) null]))
    five.toInt? = some 5 ∧ Source.decimalValue? five.keyText.toList = some five ∧
      (∀ (y : Double) m, y.toInt? = some m → m.natAbs < 10 ^ 21 → five.keyText = y.keyText → m = 5) ∧
      ∃ p, s.findProperty? s.root five.keyText = some p ∧ s.NumberKeyed p five := by
  intro five null s
  have hint : five.toInt? = some 5 := by decide +kernel
  obtain ⟨hback, hsame, hfind⟩ := number_keys_iff hint (by decide)
  have hmembers : s.members s.root = [⟨2⟩, ⟨5⟩] := by decide +kernel
  have hproperty : s.get ⟨5⟩ = .property ⟨3⟩ ⟨4⟩ .init false false false := rfl
  have hkey : s.get ⟨3⟩ = .literal (.number five) "5" := rfl
  have hfive : s.NumberKeyed ⟨5⟩ five := .property hproperty hkey
  have hkeys : s.IntegerKeyed s.root fun p => if p = ⟨5⟩ then some 5 else none := by
    intro p hp
    rw [hmembers, List.mem_cons, List.mem_singleton] at hp
    rcases hp with rfl | rfl
    · refine .inr ⟨rfl, fun k hk => ?_⟩
      have hname : s.memberKey? ⟨2⟩ = some "a" := by decide +kernel
      have htext := congrArg String.toList (Option.some.inj (hname.symm.trans hk))
      rw [Double.toList_toString] at htext
      split at htext
      · exact absurd (List.cons.inj htext).1 (by decide)
      · exact absurd (isAsciiDigit_toDigits k.natAbs 'a' (htext ▸ List.mem_cons_self)) (by decide)
    · exact .inl ⟨five, 5, rfl, hfive, hint, by decide⟩
  refine ⟨hint, hback.2 (by decide), fun y m hy hm htext => ?_, ⟨5⟩, (hfind s s.root _ hkeys).1.trans ?_, hfive⟩
  · have := (hsame y m hy hm).1 htext
    rw [SameKey] at this
    omega
  · rw [sameKeyed?, hmembers]
    rfl

/-- The keys `1e19` and `1e20` have one text, that of the greatest integer of 64 bits, and one is taken for the other. -/
theorem large_keys_same :
    let small : Double := ⟨0x43E158E460913D00⟩
    let large : Double := ⟨0x4415AF1D78B58C40⟩
    let s := ofTree (.mk (.objectExpression [Source.plainProperty (.other (.mk (.literal (.number small) "1e19")))
      (.mk (.literal .null "null"))]))
    small.toInt? = some (10 ^ 19) ∧ large.toInt? = some (10 ^ 20) ∧
      Source.decimalValue? large.keyText.toList ≠ some large ∧ small.keyText = large.keyText ∧
      ∃ p, s.findProperty? s.root large.keyText = some p ∧ s.NumberKeyed p small := by
  intro small large s
  refine ⟨by decide +kernel, by decide +kernel, by decide +kernel, by decide +kernel, ⟨2⟩, by decide +kernel, ?_⟩
  have hproperty : s.get ⟨2⟩ = .property ⟨0⟩ ⟨1⟩ .init false false false := rfl
  have hkey : s.get ⟨0⟩ = .literal (.number small) "1e19" := rfl
  exact .property hproperty hkey

end Store
end Graft
