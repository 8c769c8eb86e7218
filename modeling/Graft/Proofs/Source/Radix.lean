import Graft.Proofs.Number.Nearest
import Graft.Proofs.Source.StringValue
/-!
# Integers in hexadecimal, octal and binary

The digits of an integer are added up in doubles, one after the other. As long as a double holds the number exactly that is
what it should be, and the digit that makes it too long for that rounds it. Every digit after this one is lost, so the
outcome is the nearest double unless a later digit settles a tie: `decodeNumber?_integer` says exactly when.
-/

namespace Graft

namespace Lexical

open Source (hexValue? digitValue? isHexDigit isOctalDigit)

/-! ## Literals -/

/-- An integer that is not decimal, with the bits of a digit and the digits, separators included. -/
inductive IsInteger : List Char → Nat → List Char → Prop
  | hexadecimal {x : Char} {ds : List Char} : x = 'x' ∨ x = 'X' → areDigits isHexDigit ds = true →
    IsInteger ('0' :: x :: ds) 4 ds
  | octal {x : Char} {ds : List Char} : x = 'o' ∨ x = 'O' → areDigits isOctalDigit ds = true →
    IsInteger ('0' :: x :: ds) 3 ds
  | binary {x : Char} {ds : List Char} : x = 'b' ∨ x = 'B' → areDigits isBinaryDigit ds = true →
    IsInteger ('0' :: x :: ds) 1 ds
  | legacy {ds : List Char} : ds ≠ [] → ds.all isOctalDigit = true → IsInteger ('0' :: ds) 3 ds

def digit (d : Char) : Nat := (hexValue? d).getD 0

/-- The number that digits without separators denote. -/
def valueOf (bits : Nat) (ds : List Char) : Nat := ds.foldl (fun n d => n * 2 ^ bits + digit d) 0

def unseparated (ds : List Char) : List Char := ds.filter (· ≠ '_')

section
variable {w ds : List Char} {bits : Nat} {d : Char}

theorem IsInteger.isNumeral (h : IsInteger w bits ds) : IsNumeral w := by
  cases h with
  | @hexadecimal x _ hx hds =>
    rw [← List.append_nil ds]
    exact .radix (by rcases hx with rfl | rfl <;> simp [radixes]) hds (.inl rfl)
  | octal hx hds =>
    rw [← List.append_nil ds]
    exact .radix (by rcases hx with rfl | rfl <;> simp [radixes]) hds (.inl rfl)
  | binary hx hds =>
    rw [← List.append_nil ds]
    exact .radix (by rcases hx with rfl | rfl <;> simp [radixes]) hds (.inl rfl)
  | legacy hne hds => exact .octal hne hds

theorem valueOf_concat (bits : Nat) (ds : List Char) (d : Char) :
    valueOf bits (ds ++ [d]) = valueOf bits ds * 2 ^ bits + digit d := by
  rw [valueOf, List.foldl_append]
  rfl

theorem valueOf_append (bits : Nat) (ds rest : List Char) :
    valueOf bits (ds ++ rest) = valueOf bits ds * 2 ^ (bits * rest.length) + valueOf bits rest := by
  induction rest using List.reverseRecOn with
  | nil => simp [valueOf]
  | append_singleton rest d ih =>
    rw [← List.append_assoc, valueOf_concat, ih, valueOf_concat, List.length_append, List.length_singleton, Nat.mul_add,
      Nat.mul_one, Nat.pow_add]
    ring

theorem valueOf_lt (h : ∀ d ∈ ds, digit d < 2 ^ bits) : valueOf bits ds < 2 ^ (bits * ds.length) := by
  induction ds using List.reverseRecOn with
  | nil => exact Nat.pow_pos (by decide)
  | append_singleton ds d ih =>
    have hds := ih fun c hc => h c (List.mem_append_left _ hc)
    have hd := h d (List.mem_append_right _ (List.mem_singleton_self d))
    rw [valueOf_concat, List.length_append, List.length_singleton, Nat.mul_add, Nat.mul_one, Nat.pow_add]
    calc valueOf bits ds * 2 ^ bits + digit d < (valueOf bits ds + 1) * 2 ^ bits := by rw [Nat.succ_mul]; omega
      _ ≤ 2 ^ (bits * ds.length) * 2 ^ bits := Nat.mul_le_mul_right _ hds

/-- The digit that makes a number too long for a double. -/
theorem exists_long (h : 2 ^ 53 ≤ valueOf bits ds) : ∃ lead d rest, ds = lead ++ d :: rest ∧
    valueOf bits lead < 2 ^ 53 ∧ 2 ^ 53 ≤ valueOf bits (lead ++ [d]) := by
  induction ds using List.reverseRecOn with
  | nil => exact absurd (show 2 ^ 53 ≤ 0 from h) (by decide)
  | append_singleton ds d ih =>
    rcases Nat.lt_or_ge (valueOf bits ds) (2 ^ 53) with hlt | hge
    · exact ⟨ds, d, [], rfl, hlt, h⟩
    · obtain ⟨lead, c, rest, rfl, hlead, hc⟩ := ih hge
      exact ⟨lead, c, rest ++ [d], by rw [List.append_assoc]; rfl, hlead, hc⟩

theorem valueOf_le_append (bits : Nat) (ds rest : List Char) : valueOf bits ds ≤ valueOf bits (ds ++ rest) := by
  rw [valueOf_append]
  exact (Nat.le_mul_of_pos_right _ (Nat.pow_pos (by decide))).trans (Nat.le_add_right _ _)

theorem long_unique {lead lead' rest rest' : List Char} {d d' : Char} (heq : lead ++ d :: rest = lead' ++ d' :: rest')
    (hlead : valueOf bits lead < 2 ^ 53) (hlong : 2 ^ 53 ≤ valueOf bits (lead ++ [d])) (hlead' : valueOf bits lead' < 2 ^ 53)
    (hlong' : 2 ^ 53 ≤ valueOf bits (lead' ++ [d'])) : lead = lead' ∧ d = d' ∧ rest = rest' := by
  -- the digits in front of a long number do not go on to be the front of another one
  have stops {lead lead' t tail rest : List Char} {d : Char} (h : lead' = lead ++ t) (ht : d :: rest = t ++ tail)
      (hlong : 2 ^ 53 ≤ valueOf bits (lead ++ [d])) (hlead' : valueOf bits lead' < 2 ^ 53) : t = [] := by
    cases t with
    | nil => rfl
    | cons c t =>
      obtain rfl := (List.cons.inj ht).1
      rw [h, List.append_cons] at hlead'
      exact absurd (hlong.trans (valueOf_le_append bits _ t)) (not_le.2 hlead')
  rcases List.append_eq_append_iff.1 heq with ⟨t, h, ht⟩ | ⟨t, h, ht⟩
  · obtain rfl := stops h ht hlong hlead'
    rw [List.append_nil] at h
    exact ⟨h.symm, List.cons.inj ht⟩
  · obtain rfl := stops h ht hlong' hlead
    rw [List.append_nil] at h
    exact ⟨h, (List.cons.inj ht).1.symm, (List.cons.inj ht).2.symm⟩

end
end Lexical

namespace Source

open Lexical Double

variable {w cs ds : List Char} {bits : Nat}

/-! ## Adding up -/

def accumulate (bits : Nat) (x : Double) (ds : List Char) : Double := ds.foldl (fun x d => x.mulAdd (2 ^ bits) (digit d)) x

theorem accumulate_append (bits : Nat) (x : Double) (ds rest : List Char) :
    accumulate bits x (ds ++ rest) = accumulate bits (accumulate bits x ds) rest := List.foldl_append

theorem accumulate_concat (bits : Nat) (x : Double) (ds : List Char) (d : Char) :
    accumulate bits x (ds ++ [d]) = (accumulate bits x ds).mulAdd (2 ^ bits) (digit d) := accumulate_append bits x ds [d]

/-- Digits are added up exactly while the number fits a double. -/
theorem accumulate_exact (hbits : bits ≤ 971) (h : valueOf bits ds < 2 ^ 53) :
    accumulate bits Double.zero ds = ofNat (valueOf bits ds) := by
  induction ds using List.reverseRecOn with
  | nil => rfl
  | append_singleton ds d ih =>
    rw [valueOf_concat] at h
    have hds : valueOf bits ds < 2 ^ 53 := by
      have := Nat.le_mul_of_pos_right (valueOf bits ds) (Nat.pow_pos (n := bits) (show 0 < 2 by decide))
      omega
    rw [accumulate_concat, ih hds, mulAdd_ofNat hds hbits, valueOf_concat]

/-- With all the bits of a double in use, further digits are lost. -/
theorem accumulate_full {m j : Nat} (hds : ∀ d ∈ ds, digit d < 2 ^ bits) (hfull : 2 ^ 52 ≤ m) (hm : m ≤ 2 ^ 53)
    (hj : 0 < j) : accumulate bits (ofUnits false j m) ds = ofUnits false (j + bits * ds.length : Nat) m := by
  have below {m j : Nat} (hfull : 2 ^ 52 ≤ m) (hm : m < 2 ^ 53) (hj : 0 < j) :
      accumulate bits (ofUnits false j m) ds = ofUnits false (j + bits * ds.length : Nat) m := by
    induction ds using List.reverseRecOn with
    | nil => rfl
    | append_singleton ds d ih =>
      have hd := hds d (List.mem_append_right _ (List.mem_singleton_self d))
      rw [accumulate_concat, ih fun c hc => hds c (List.mem_append_left _ hc), mulAdd_ofUnits hfull hm (by omega) hd,
        List.length_append, List.length_singleton, Nat.mul_add, Nat.mul_one, Nat.add_assoc]
  rcases hm.eq_or_lt with rfl | hlt
  · have hcarry (i : Nat) : ofUnits false i (2 ^ 53) = ofUnits false (i + 1 : Nat) (2 ^ 52) := ofUnits_carry (by omega)
    rw [hcarry, hcarry, below (le_refl _) (by decide) (by omega), Nat.add_right_comm]
  · exact below hfull hlt hj

theorem radixValue?_digits (hne : ds ≠ []) (hds : ∀ d ∈ ds, digitValue? (2 ^ bits) d = some (digit d)) :
    radixValue? (2 ^ bits) ds = some (accumulate bits Double.zero ds) := by
  have folded (x : Double) : ds.foldlM (fun x c => (digitValue? (2 ^ bits) c).map (x.mulAdd (2 ^ bits) ·)) x =
      some (accumulate bits x ds) := by
    clear hne
    induction ds generalizing x with
    | nil => rfl
    | cons d ds ih =>
      obtain ⟨hd, hds⟩ := List.forall_mem_cons.1 hds
      rw [List.foldlM_cons, hd, Option.map_some]
      exact ih hds _
  rw [radixValue?, if_neg (by simpa using hne), folded]

/-! ## The nearest double -/

/-- The digit that makes a number too long for a double leaves it halfway between two of them, with the even one below, and the
digits after it are not all zeros. -/
def LosesTie (bits : Nat) (ds : List Char) : Prop :=
  ∃ lead d rest, ds = lead ++ d :: rest ∧ valueOf bits lead < 2 ^ 53 ∧ Halfway (valueOf bits (lead ++ [d])) ∧
    valueOf bits rest ≠ 0 ∧ valueOf bits ds < 2 ^ 1024

theorem losesTie_iff {lead rest : List Char} {d : Char} (hlead : valueOf bits lead < 2 ^ 53)
    (hlong : 2 ^ 53 ≤ valueOf bits (lead ++ [d])) : LosesTie bits (lead ++ d :: rest) ↔
      Halfway (valueOf bits (lead ++ [d])) ∧ valueOf bits rest ≠ 0 ∧ valueOf bits (lead ++ d :: rest) < 2 ^ 1024 := by
  constructor
  · rintro ⟨lead', d', rest', heq, hlead', hhalf, hrest, hlt⟩
    obtain ⟨rfl, rfl, rfl⟩ := long_unique heq hlead hlong hlead' hhalf.ge
    exact ⟨hhalf, hrest, hlt⟩
  · rintro ⟨hhalf, hrest, hlt⟩
    exact ⟨lead, d, rest, rfl, hlead, hhalf, hrest, hlt⟩

/-- What digits add up to is the nearest double, but for a tie that later digits settle. -/
theorem accumulate_nearest_iff (hbits : bits ≤ 971) (hds : ∀ d ∈ ds, digit d < 2 ^ bits) :
    IsNearest (valueOf bits ds) (accumulate bits Double.zero ds) ↔ ¬ LosesTie bits ds := by
  rcases Nat.lt_or_ge (valueOf bits ds) (2 ^ 53) with hlt | hge
  · rw [accumulate_exact hbits hlt]
    refine iff_of_true (isNearest_ofNat _) ?_
    rintro ⟨lead, d, rest, rfl, -, hhalf, -⟩
    rw [List.append_cons] at hlt
    exact absurd (hhalf.ge.trans (valueOf_le_append bits _ rest)) (not_le.2 hlt)
  obtain ⟨lead, d, rest, rfl, hlead, hlong⟩ := exists_long hge
  rw [losesTie_iff hlead hlong]
  have hrest : ∀ c ∈ rest, digit c < 2 ^ bits := fun c hc => hds c (List.mem_append_right _ (List.mem_cons_of_mem _ hc))
  obtain ⟨e, m, h⟩ := exists_rounds (Nat.lt_of_lt_of_le (by decide) hlong) Nat.one_pos
  rw [Nat.cast_one, div_one] at h
  obtain ⟨j, rfl⟩ := h.exists_unit hlong
  have hrounded : accumulate bits Double.zero (lead ++ d :: rest) = ofUnits false (j + bits * rest.length + 1 : Nat) m := by
    have hlead' : accumulate bits Double.zero (lead ++ [d]) = ofUnits false (j + 1 : Nat) m := by
      rw [accumulate_concat, accumulate_exact hbits hlead, mulAdd_ofNat hlead hbits, ← valueOf_concat,
        ofNat_of_rounds (Nat.lt_of_lt_of_le (by decide) hlong) h]
    rw [List.append_cons, accumulate_append, hlead',
      accumulate_full hrest (h.fits.full (by omega)) h.fits.carry (Nat.succ_pos j), Nat.add_right_comm]
  rw [hrounded, List.append_cons, valueOf_append]
  exact h.isNearest_append_iff (valueOf_lt hrest)

/-! ## Literals -/

theorem hexValue?_toLower (c : Char) : hexValue? (toLower c) = hexValue? c := by
  unfold toLower
  split
  next h =>
    have h₁ : 65 ≤ c.toNat := h.1
    have h₂ : c.toNat ≤ 90 := h.2
    rw [← Char.ofNat_toNat c]
    generalize c.toNat = n at h₁ h₂
    interval_cases n <;> rfl
  next => rfl

theorem digitValue?_of_lt {radix v : Nat} {d : Char} (h : hexValue? d = some v) (hv : v < radix) :
    digitValue? radix d = some (digit d) := by
  rw [digitValue?, digit, h, Option.bind_some, if_pos hv, Option.getD_some]

theorem hexDigit_value {d : Char} (h : isHexDigit d = true) : digitValue? (2 ^ 4) d = some (digit d) := by
  obtain ⟨v, hv⟩ := Option.isSome_iff_exists.1 h
  exact digitValue?_of_lt hv (hexValue?_lt hv)

theorem octalDigit_value {d : Char} (h : isOctalDigit d = true) : digitValue? (2 ^ 3) d = some (digit d) := by
  have hlt := octal_lt h
  rw [isOctalDigit, Bool.and_eq_true, decide_eq_true_eq, decide_eq_true_eq] at h
  exact digitValue?_of_lt (if_pos ⟨h.1, h.2.trans (by decide)⟩) hlt

theorem binaryDigit_value {d : Char} (h : isBinaryDigit d = true) : digitValue? (2 ^ 1) d = some (digit d) := by
  rw [isBinaryDigit, Bool.or_eq_true, decide_eq_true_eq, decide_eq_true_eq] at h
  rcases h with rfl | rfl <;> rfl

/-- Digits without their separators. -/
theorem unseparated_spec {isDigit : Char → Bool} (hdigits : areDigits isDigit ds = true)
    (hvalue : ∀ d, isDigit d = true → digitValue? (2 ^ bits) d = some (digit d)) :
    unseparated ds ≠ [] ∧ ∀ d ∈ unseparated ds, digitValue? (2 ^ bits) d = some (digit d) := by
  have hnone : digitValue? (2 ^ bits) '_' = none := rfl
  constructor
  · obtain ⟨d, rest, rfl, hd⟩ := areDigits_head hdigits
    refine List.ne_nil_of_mem (a := d) (List.mem_filter.2 ⟨List.mem_cons_self, decide_eq_true ?_⟩)
    rintro rfl
    cases hnone.symm.trans (hvalue '_' hd)
  · intro d hd
    obtain ⟨hd, hne⟩ := List.mem_filter.1 hd
    exact hvalue d ((areDigits_chars hdigits d hd).resolve_right (of_decide_eq_true hne))

theorem unseparated_octal (h : ds.all isOctalDigit = true) : unseparated ds = ds :=
  List.filter_eq_self.2 fun d hd => decide_eq_true fun hne => by
    subst hne
    exact absurd (List.all_eq_true.1 h _ hd) (by decide)

theorem integer_digits (h : IsInteger w bits ds) :
    unseparated ds ≠ [] ∧ ∀ d ∈ unseparated ds, digitValue? (2 ^ bits) d = some (digit d) := by
  cases h with
  | hexadecimal _ hds => exact unseparated_spec hds fun _ => hexDigit_value
  | octal _ hds => exact unseparated_spec hds fun _ => octalDigit_value
  | binary _ hds => exact unseparated_spec hds fun _ => binaryDigit_value
  | legacy hne hds =>
    rw [unseparated_octal hds]
    exact ⟨hne, fun d hd => octalDigit_value (List.all_eq_true.1 hds d hd)⟩

theorem digit_lt {d : Char} (h : digitValue? (2 ^ bits) d = some (digit d)) : digit d < 2 ^ bits := by
  rw [digitValue?, Option.bind_eq_some_iff] at h
  obtain ⟨v, -, hv⟩ := h
  split at hv
  next hlt => exact (Option.some.inj hv) ▸ hlt
  next => cases hv

/-- Upper and lower case add up to the same. -/
theorem radixValue?_toLower (hne : cs ≠ []) (hcs : ∀ d ∈ cs, digitValue? (2 ^ bits) d = some (digit d)) :
    radixValue? (2 ^ bits) (cs.map toLower) = some (accumulate bits Double.zero cs) := by
  have hdigit (d : Char) : digit (toLower d) = digit d := by rw [digit, hexValue?_toLower, digit]
  have hlower : accumulate bits Double.zero (cs.map toLower) = accumulate bits Double.zero cs := by
    rw [accumulate, List.foldl_map]
    simp only [hdigit]
    rfl
  rw [radixValue?_digits (by simpa using hne), hlower]
  intro d hd
  obtain ⟨c, hc, rfl⟩ := List.mem_map.1 hd
  rw [digitValue?, hexValue?_toLower, hdigit]
  exact hcs c hc

/-- An integer is decoded by adding up its digits. -/
theorem decodeNumber?_digits (h : IsInteger w bits ds) :
    decodeNumber? (String.ofList w) = some (accumulate bits Double.zero (unseparated ds)) := by
  obtain ⟨hne, hds⟩ := integer_digits h
  have hvalue := radixValue?_toLower hne hds
  have hlast (front : List Char) : (front ++ unseparated ds).getLast? ≠ some 'n' := by
    intro hn
    rw [List.getLast?_append_of_ne_nil _ hne] at hn
    cases (hds 'n' (List.mem_of_getLast? hn)).symm.trans (show digitValue? (2 ^ bits) 'n' = none from rfl)
  have hprefixed {x : Char} (hx : x ≠ '_') :
      ('0' :: x :: ds).filter (fun c => decide (c ≠ '_')) = '0' :: x :: unseparated ds ∧
        ('0' :: x :: unseparated ds).getLast? ≠ some 'n' := by
    rw [List.filter_cons_of_pos rfl, List.filter_cons_of_pos (p := fun c => decide (c ≠ '_')) (decide_eq_true hx)]
    exact ⟨rfl, hlast ['0', x]⟩
  rw [decodeNumber?, String.toList_ofList]
  cases h with
  | hexadecimal hx _ | octal hx _ | binary hx _ =>
    rcases hx with rfl | rfl
    all_goals
      rw [(hprefixed (by decide)).1, if_neg (hprefixed (by decide)).2]
      exact hvalue
  | legacy hne' hoctal =>
    obtain ⟨d, rest, rfl⟩ := List.exists_cons_of_ne_nil hne'
    have hplain : unseparated (d :: rest) = d :: rest := unseparated_octal hoctal
    have hlower : (d :: rest).map toLower = d :: rest := by
      conv_rhs => rw [← List.map_id (d :: rest)]
      refine List.map_congr_left fun c hc => if_neg fun hupper => ?_
      have hoctal := List.all_eq_true.1 hoctal c hc
      rw [isOctalDigit, Bool.and_eq_true, decide_eq_true_eq, decide_eq_true_eq] at hoctal
      exact absurd (hupper.1.trans hoctal.2) (by decide)
    have hclean : ('0' :: d :: rest).filter (fun c => decide (c ≠ '_')) = '0' :: d :: rest := by
      rw [List.filter_cons_of_pos rfl]
      exact congrArg ('0' :: ·) hplain
    have hlast' : ('0' :: unseparated (d :: rest)).getLast? ≠ some 'n' := hlast ['0']
    have hd : isOctalDigit d = true := List.all_eq_true.1 hoctal d List.mem_cons_self
    rw [hplain] at hlast' hvalue ⊢
    rw [hlower] at hvalue
    rw [hclean, if_neg hlast', List.map_cons, hlower, show toLower '0' = '0' from rfl]
    split
    next h => exact absurd ((List.cons.inj (List.cons.inj h).2).1 ▸ hd) (by decide)
    next h => exact absurd ((List.cons.inj (List.cons.inj h).2).1 ▸ hd) (by decide)
    next h => exact absurd ((List.cons.inj (List.cons.inj h).2).1 ▸ hd) (by decide)
    next => exact (if_pos hoctal).trans hvalue

/-- An integer is decoded as the double nearest to it exactly if its digits lose no tie, and as itself below `2^53`. -/
theorem decodeNumber?_integer (h : IsInteger w bits ds) : ∃ x, decodeNumber? (String.ofList w) = some x ∧
    (IsNearest (valueOf bits (unseparated ds)) x ↔ ¬ LosesTie bits (unseparated ds)) ∧
    (valueOf bits (unseparated ds) < 2 ^ 53 → x.isFinite = true ∧ x.toRat = valueOf bits (unseparated ds)) := by
  obtain ⟨-, hds⟩ := integer_digits h
  have hbits : bits ≤ 971 := by cases h <;> decide
  refine ⟨_, decodeNumber?_digits h, accumulate_nearest_iff hbits fun d hd => digit_lt (hds d hd), fun hlt => ?_⟩
  rw [accumulate_exact hbits hlt]
  obtain ⟨hfin, -, hrat⟩ := ofNat_exact (j := 0) hlt (units_lt (i := 1024) hlt (by decide))
  rw [Nat.pow_zero, Nat.mul_one] at hfin hrat
  exact ⟨hfin, hrat⟩

/-- `0XF_f` is 255. -/
theorem decodeNumber?_integer_separated : IsInteger "0XF_f".toList 4 "F_f".toList ∧
    ∃ x, decodeNumber? (String.ofList "0XF_f".toList) = some x ∧ x.isFinite = true ∧ x.toRat = (255 : Nat) := by
  have h : IsInteger "0XF_f".toList 4 "F_f".toList := .hexadecimal (.inr rfl) (by decide)
  obtain ⟨x, hx, -, hexact⟩ := decodeNumber?_integer h
  exact ⟨h, x, hx, hexact (by decide)⟩

/-- `0x200000000000011` is `2^57 + 17`, and the doubles next to it are `2^57` and `2^57 + 32`. It is decoded as the first. -/
theorem tie_lost : IsInteger "0x200000000000011".toList 4 "200000000000011".toList ∧
    valueOf 4 (unseparated "200000000000011".toList) = 2 ^ 57 + 17 ∧
    decodeNumber? (String.ofList "0x200000000000011".toList) = some ⟨0x4380000000000000⟩ ∧
    ¬ IsNearest (2 ^ 57 + 17 : Nat) ⟨0x4380000000000000⟩ := by
  have h : IsInteger "0x200000000000011".toList 4 "200000000000011".toList := .hexadecimal (.inl rfl) (by decide)
  have hvalue : valueOf 4 (unseparated "200000000000011".toList) = 2 ^ 57 + 17 := by decide +kernel
  have hdecoded : decodeNumber? (String.ofList "0x200000000000011".toList) = some ⟨0x4380000000000000⟩ := by decide +kernel
  have hlost : LosesTie 4 (unseparated "200000000000011".toList) :=
    ⟨"2000000000000".toList, '1', ['1'], by decide, by decide +kernel,
      ⟨2 ^ 51, 0, by decide, by decide, by decide +kernel⟩, by decide, by decide +kernel⟩
  have hnearest := accumulate_nearest_iff (by decide) fun d hd => digit_lt ((integer_digits h).2 d hd)
  rw [Option.some.inj ((decodeNumber?_digits h).symm.trans hdecoded), hvalue] at hnearest
  exact ⟨h, hvalue, hdecoded, fun hx => hnearest.1 hx hlost⟩

end Source
end Graft
