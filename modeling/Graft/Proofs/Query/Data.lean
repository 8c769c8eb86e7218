import Graft.Proofs.Query.Values
/-!
# Trees of data have their values

The tree of a JSON value without arrays has that value, as the object matcher sees it: a number is found again behind its sign, and a
key, bare or quoted, names what it was written for (`Json.hasValue_tree`).
-/

namespace Graft

theorem Double.isNaN_ofFields {neg : Bool} {k : Nat} (h : k ≤ infinityMagnitude) : (ofFields neg k).isNaN = false := by
  have hinf : infinityMagnitude < 2 ^ 63 := by decide +kernel
  have hfields : (ofFields neg k).magnitude = k := magnitude_ofFields (lt_of_le_of_lt h hinf)
  rw [isNaN, hfields, decide_eq_false_iff_not]
  exact Nat.not_lt.2 h

theorem Double.isNaN_inUnit (neg : Bool) (num den : Nat) (e : Int) : (inUnit neg num den e).isNaN = false := by
  rw [inUnit]
  generalize inUnits num den e = u
  exact isNaN_ofFields (Nat.min_le_right _ _)

/-- Rounding gives a number or an infinity. -/
theorem Double.isNaN_ofRatio (neg : Bool) (num den : Nat) : (ofRatio neg num den).isNaN = false := by
  rw [ofRatio]
  split
  next => exact isNaN_ofFields (Nat.zero_le _)
  next => exact isNaN_inUnit neg num den _

theorem Double.eqv_self {x : Double} (h : x.isNaN = false) : x.eqv x = true := by
  simp [eqv, h]

namespace Json

/-- No array in it, at any depth. -/
inductive ArrayFree : Json → Prop
  | null : ArrayFree .null
  | bool (b : Bool) : ArrayFree (.bool b)
  | int (n : Int) : ArrayFree (.int n)
  | double (x : Double) : ArrayFree (.double x)
  | string (s : String) : ArrayFree (.string s)
  | object (members : List (String × Json)) (h : ∀ m ∈ members, ArrayFree m.2) : ArrayFree (.object members)

variable {j : Json} {x : Double} {members : List (String × Json)}

theorem Proper.isNaN (hj : j.Proper) (hx : j.number? = some x) : x.isNaN = false := by
  cases hj with
  | int n h =>
    obtain rfl := Option.some.inj hx
    exact Double.isNaN_ofRatio _ _ _
  | double y h =>
    obtain rfl := Option.some.inj hx
    have hlt : y.magnitude < Double.infinityMagnitude := of_decide_eq_true h
    rw [Double.isNaN, decide_eq_false_iff_not]
    exact Nat.not_lt.2 (le_of_lt hlt)
  | _ => cases hx

/-- The tree of a number stands for the number. -/
theorem constant?_signedTree (hj : j.Proper) (hx : j.number? = some x) :
    (signedTree (Source.ofJson j).toList).constant? = some (.number x) := by
  obtain ⟨minus, d, hd, rfl, htext⟩ := numeral_spec hj hx
  obtain ⟨c, cs, hhead, hc⟩ := Decimal.head_digit hd
  rw [htext]
  cases minus with
  | false =>
    rw [if_neg Bool.false_ne_true, if_neg Bool.false_ne_true, hhead, signedTree, ← hhead, Store.numberTree_text hd]
    · rfl
    · rintro numeral ⟨⟩
      cases hc
  | true =>
    rw [if_pos rfl, if_pos rfl, signedTree, Store.numberTree_text hd]
    rfl

theorem hasValue_number (hj : j.Proper) (hx : j.number? = some x) (htree : j.tree = signedTree (Source.ofJson j).toList) :
    j.tree.hasValue j = true := by
  have hconstant : j.tree.constant? = some (.number x) := htree ▸ constant?_signedTree hj hx
  have heq : (LiteralValue.number x).eqJson j = true := by
    rw [LiteralValue.eqJson.eq_def]
    simp only [hx]
    exact Double.eqv_self (hj.isNaN hx)
  cases j with
  | int n =>
    rw [Tree.hasValue, hconstant]
    · exact heq
    · intro members hobject
      cases hobject
  | double y =>
    rw [Tree.hasValue, hconstant]
    · exact heq
    · intro members hobject
      cases hobject
  | _ => cases hx

/-! ## Members -/

theorem memberKey?_plainProperty (name : String) (value : Tree) :
    (Source.plainProperty (key name) value).memberKey? = some name := by
  have hkey : (key name).tree.keyName? false = some name := by
    unfold key
    split
    next => rfl
    next =>
      change some (Source.decodeString (quote name)) = some name
      rw [Source.decodeString_quote]
  rw [← hkey, ← Store.key_not_computed name]
  rfl

/-- Every member is found by its key. -/
theorem valueOf?_memberTrees (hkeys : (members.map Prod.fst).Nodup) {m : String × Json} (hm : m ∈ members) :
    Tree.valueOf? (memberTrees members) m.1 = some m.2.tree := by
  induction members with
  | nil => cases hm
  | cons first rest ih =>
    obtain ⟨name, j⟩ := first
    rw [List.map_cons, List.nodup_cons] at hkeys
    rw [memberTrees, Tree.valueOf?, List.find?_cons, memberKey?_plainProperty]
    rcases List.mem_cons.1 hm with rfl | hrest
    · simp only [decide_true]
      rfl
    · have hne : name ≠ m.1 := by
        rintro rfl
        exact hkeys.1 (List.mem_map.2 ⟨m, hrest, rfl⟩)
      simp only [Option.some.injEq, hne, decide_false]
      exact ih hkeys.2 hrest

/-- The tree of a value has the value. -/
theorem hasValue_tree (hj : j.Proper) (ha : j.ArrayFree) : j.tree.hasValue j = true := by
  induction hj with
  | null => rfl
  | bool b => cases b <;> rfl
  | int n h => exact hasValue_number (.int n h) rfl rfl
  | double x h => exact hasValue_number (.double x h) rfl rfl
  | string s =>
    change decide (Source.decodeString (quote s) = s) = true
    rw [Source.decodeString_quote, decide_eq_true_eq]
  | array items => cases ha
  | object members _ hkeys ih =>
    cases ha with
    | object _ ha =>
      have hmembers : Tree.hasValues (memberTrees members) members = true :=
        Tree.hasValues_iff.2 fun m hm => ⟨m.2.tree, valueOf?_memberTrees hkeys hm, ih m hm (ha m hm)⟩
      exact hmembers

end Json
end Graft
