import Graft.Text.Replace
import Mathlib.Data.List.Infix
/-!
# Occurrences of literal text

`Cut old text before last` cuts a text at `old`: what stands before each occurrence that a scan from left to right meets, and
what stands after the last one. Occurrences are those among the bytes of a text, so that they could begin or end inside a
character; `split_of_bytes` says that they never do. A text has one cut, and a replacement joins it again with another text
(`replaceLiteral_cut`).
-/

namespace Graft.Text
variable {old new text gap last : String} {before : List String}

/-! ## Occurrences among bytes -/

/-- The bytes of `old` stand somewhere among those of a text. -/
def Occurs (old text : String) : Prop := ∃ u v : ByteArray, text.toByteArray = u ++ old.toByteArray ++ v

/-- In `gap` followed by `old`, `old` does not occur before its place at the end. -/
def FirstAfter (old gap : String) : Prop :=
  ∀ u v : ByteArray, (gap ++ old).toByteArray = u ++ old.toByteArray ++ v → u = gap.toByteArray

/-- A byte that a character begins with is not a byte inside a character, so the bytes of a text that is not empty only stand
between characters. -/
theorem split_of_bytes {u v : ByteArray} (hold : old ≠ "") (h : text.toByteArray = u ++ old.toByteArray ++ v) :
    ∃ x y : String, text = x ++ old ++ y ∧ x.toByteArray = u ∧ y.toByteArray = v := by
  have hpos : 0 < old.toByteArray.size := by
    rw [String.size_toByteArray]
    exact Nat.pos_of_ne_zero fun h0 => hold (String.utf8ByteSize_eq_zero_iff.1 h0)
  have hstart : (⟨u.size⟩ : String.Pos.Raw).IsValid text := by
    refine String.Pos.Raw.isValid_iff_isUTF8FirstByte.2 (.inr ⟨?_, ?_⟩)
    · rw [String.Pos.Raw.lt_iff, String.byteIdx_rawEndPos, ← String.size_toByteArray, h, ByteArray.size_append,
        ByteArray.size_append]
      exact Nat.lt_add_right _ (Nat.lt_add_of_pos_right hpos)
    · have hbyte := old.isValidUTF8.isUTF8FirstByte_getElem_zero hpos
      simp only [String.getUTF8Byte, h, ByteArray.append_assoc, ByteArray.getElem_append_right, le_refl, Nat.sub_self]
      rwa [ByteArray.getElem_append_left hpos]
  obtain ⟨x, z, rfl, hx⟩ := String.Pos.Raw.isValid_iff_exists_append.1 hstart
  have hsize : x.toByteArray.size = u.size := (congrArg String.Pos.Raw.byteIdx hx).symm
  rw [String.toByteArray_append, ByteArray.append_assoc, ByteArray.append_eq_append_iff_of_size_eq_left hsize] at h
  obtain ⟨rfl, hz⟩ := h
  obtain ⟨rest, hrest⟩ := List.isPrefix_of_utf8Encode_append_eq_utf8Encode (l := old.toList) (m := z.toList) v
    (by rw [String.utf8Encode_toList, String.utf8Encode_toList, hz])
  have hy : z = old ++ String.ofList rest := String.toList_injective (by simp [hrest])
  rw [hy, String.toByteArray_append, ByteArray.append_right_inj] at hz
  exact ⟨x, String.ofList rest, by rw [hy, String.append_assoc], rfl, hz⟩

theorem occurs_iff (hold : old ≠ "") : Occurs old text ↔ old.toList <:+: text.toList := by
  constructor
  · rintro ⟨u, v, h⟩
    obtain ⟨x, y, rfl, -, -⟩ := split_of_bytes hold h
    exact ⟨x.toList, y.toList, by simp⟩
  · rintro ⟨x, y, h⟩
    refine ⟨(String.ofList x).toByteArray, (String.ofList y).toByteArray, ?_⟩
    rw [← String.toByteArray_append, ← String.toByteArray_append, String.toByteArray_inj]
    exact String.toList_injective (by simp [h])

theorem firstAfter_iff (hold : old ≠ "") :
    FirstAfter old gap ↔ ∀ x y : List Char, gap.toList ++ old.toList = x ++ old.toList ++ y → x = gap.toList := by
  constructor
  · intro h x y hxy
    have hjoined : gap ++ old = String.ofList x ++ old ++ String.ofList y := String.toList_injective (by simp [hxy])
    have hx := h (String.ofList x).toByteArray (String.ofList y).toByteArray (by
      rw [hjoined, String.toByteArray_append, String.toByteArray_append])
    rw [← String.toByteArray_inj.1 hx, String.toList_ofList]
  · intro h u v huv
    obtain ⟨x, y, hxy, rfl, -⟩ := split_of_bytes hold huv
    rw [String.toByteArray_inj]
    exact String.toList_injective (h x.toList y.toList (by simpa using congrArg String.toList hxy))

/-! ## Cuts -/

/-- A text as the stretches before the occurrences of `old` that a scan from left to right meets, and what is left. -/
structure Cut (old text : String) (before : List String) (last : String) : Prop where
  joined : text = old.intercalate (before ++ [last])
  first : ∀ g ∈ before, FirstAfter old g
  rest : ¬ Occurs old last

theorem intercalate_cons (g : String) (before : List String) :
    old.intercalate ((g :: before) ++ [last]) = g ++ old ++ old.intercalate (before ++ [last]) :=
  String.intercalate_cons_of_ne_nil (List.append_ne_nil_of_right_ne_nil _ (List.cons_ne_nil _ _))

theorem Cut.done (h : ¬ Occurs old last) : Cut old last [] last where
  joined := String.intercalate_singleton.symm
  first := nofun
  rest := h

theorem Cut.next (hgap : FirstAfter old gap) (h : Cut old text before last) :
    Cut old (gap ++ old ++ text) (gap :: before) last where
  joined := by rw [intercalate_cons, ← h.joined]
  first := List.forall_mem_cons.2 ⟨hgap, h.first⟩
  rest := h.rest

theorem Cut.of_cons (h : Cut old text (gap :: before) last) :
    FirstAfter old gap ∧ ∃ rest, text = gap ++ old ++ rest ∧ Cut old rest before last :=
  have ⟨hgap, hbefore⟩ := List.forall_mem_cons.1 h.first
  ⟨hgap, _, by rw [h.joined, intercalate_cons], rfl, hbefore, h.rest⟩

/-- The first stretch of a cut is settled by the text. -/
theorem FirstAfter.eq {gap' rest rest' : String} (hold : old ≠ "") (h : FirstAfter old gap) (h' : FirstAfter old gap')
    (heq : gap ++ old ++ rest = gap' ++ old ++ rest') : gap = gap' ∧ rest = rest' := by
  rw [firstAfter_iff hold] at h h'
  have hlists : gap.toList ++ old.toList ++ rest.toList = gap'.toList ++ old.toList ++ rest'.toList := by
    simpa using congrArg String.toList heq
  have hgap : gap.toList = gap'.toList := by
    rcases List.append_eq_append_iff.1 hlists with ⟨z, hz, -⟩ | ⟨z, hz, -⟩
    · exact h' gap.toList z hz
    · exact (h gap'.toList z hz).symm
  obtain rfl := String.toList_injective hgap
  exact ⟨rfl, String.toList_injective (List.append_cancel_left hlists)⟩

/-- A text has one cut. -/
theorem Cut.unique {before' : List String} {last' : String} (hold : old ≠ "") (h : Cut old text before last)
    (h' : Cut old text before' last') : before' = before ∧ last' = last := by
  have met (g r : String) : Occurs old (g ++ old ++ r) :=
    ⟨g.toByteArray, r.toByteArray, by rw [String.toByteArray_append, String.toByteArray_append]⟩
  induction before generalizing text before' with
  | nil =>
    have hlast : text = last := h.joined.trans String.intercalate_singleton
    cases before' with
    | nil => exact ⟨rfl, (h'.joined.trans String.intercalate_singleton).symm.trans hlast⟩
    | cons g before' =>
      obtain ⟨-, rest, hrest, -⟩ := h'.of_cons
      exact absurd (hlast ▸ hrest ▸ met g rest) h.rest
  | cons g before ih =>
    obtain ⟨hg, rest, hrest, hcut⟩ := h.of_cons
    cases before' with
    | nil =>
      have hlast : text = last' := h'.joined.trans String.intercalate_singleton
      exact absurd (hlast ▸ hrest ▸ met g rest) h'.rest
    | cons g' before' =>
      obtain ⟨hg', rest', hrest', hcut'⟩ := h'.of_cons
      obtain ⟨rfl, rfl⟩ := hg.eq hold hg' (hrest.symm.trans hrest')
      obtain ⟨rfl, rfl⟩ := ih hcut hcut'
      exact ⟨rfl, rfl⟩

/-! ## The scan -/

theorem after?_eq_some {pattern text rest : List Char} : after? pattern text = some rest ↔ text = pattern ++ rest := by
  induction pattern generalizing text with
  | nil => simp [after?]
  | cons p pattern ih =>
    cases text with
    | nil => simp [after?]
    | cons c text =>
      rw [after?]
      split
      next h => rw [ih, h, List.cons_append, List.cons.injEq, and_iff_right rfl]
      next h => simp [Ne.symm h]

/-- No occurrence begins in the gap that the scan has passed, which is reversed. -/
def Passed (pattern gap text : List Char) : Prop :=
  ∀ x y, gap.reverse ++ text = x ++ pattern ++ y → gap.length ≤ x.length

section Passed
variable {pattern gap text : List Char}

theorem Passed.start : Passed pattern [] text := fun _ _ _ => Nat.zero_le _

/-- A character at which no occurrence begins goes into the gap. -/
theorem Passed.push {c : Char} (h : Passed pattern gap (c :: text)) (hc : ∀ after, c :: text ≠ pattern ++ after) :
    Passed pattern (c :: gap) text := by
  intro x y hxy
  rw [List.reverse_cons, List.append_assoc, List.singleton_append] at hxy
  refine Nat.lt_of_le_of_ne (h x y hxy) fun hlength => ?_
  rw [List.append_assoc] at hxy
  exact hc y (List.append_inj hxy (by rw [List.length_reverse, hlength])).2

theorem Passed.not_occurs (hpattern : String.ofList pattern ≠ "") (h : Passed pattern gap []) :
    ¬ Occurs (String.ofList pattern) (String.ofList gap.reverse) := by
  rw [occurs_iff hpattern, String.toList_ofList, String.toList_ofList]
  rintro ⟨x, y, hxy⟩
  have hle := h x y (by rw [List.append_nil, hxy])
  have hlength := congrArg List.length hxy
  simp only [List.length_append, List.length_reverse] at hlength
  have hpos : pattern ≠ [] := fun hnil => hpattern (by rw [hnil])
  have := List.length_pos_iff.2 hpos
  omega

theorem Passed.firstAfter {after : List Char} (hpattern : String.ofList pattern ≠ "")
    (h : Passed pattern gap (pattern ++ after)) : FirstAfter (String.ofList pattern) (String.ofList gap.reverse) := by
  rw [firstAfter_iff hpattern, String.toList_ofList, String.toList_ofList]
  intro x y hxy
  have hle := h x (y ++ after) (by rw [← List.append_assoc, hxy, List.append_assoc])
  have hlength := congrArg List.length hxy
  simp only [List.length_append, List.length_reverse] at hlength
  rw [List.append_assoc] at hxy
  exact (List.append_inj hxy (by rw [List.length_reverse]; omega)).1.symm

end Passed

/-- The scan cuts a text, the part that it has passed included. -/
theorem gapsFrom_cut {p : Char} {pattern : List Char} (gap text : List Char) (hpassed : Passed (p :: pattern) gap text) :
    ∃ before last, (gapsFrom p pattern gap text).map String.ofList = before ++ [last] ∧
      Cut (String.ofList (p :: pattern)) (String.ofList (gap.reverse ++ text)) before last := by
  have hold : String.ofList (p :: pattern) ≠ "" := by simp
  induction gap, text using gapsFrom.induct p pattern with
  | case1 gap =>
    rw [gapsFrom, List.append_nil]
    exact ⟨[], String.ofList gap.reverse, rfl, .done (hpassed.not_occurs hold)⟩
  | case2 gap rest after hfound ih =>
    obtain ⟨before, last, hparts, hcut⟩ := ih .start
    obtain rfl := after?_eq_some.1 hfound
    refine ⟨String.ofList gap.reverse :: before, last, ?_, ?_⟩
    · rw [gapsFrom, if_pos rfl]
      split
      next after' h =>
        cases hfound.symm.trans h
        rw [List.map_cons, hparts, List.cons_append]
      next h => cases hfound.symm.trans h
    · have htext : String.ofList (gap.reverse ++ p :: (pattern ++ after)) =
          String.ofList gap.reverse ++ String.ofList (p :: pattern) ++ String.ofList ([].reverse ++ after) := by
        rw [List.reverse_nil, List.nil_append, ← String.ofList_append, ← String.ofList_append, List.append_assoc,
          List.cons_append]
      rw [htext]
      exact .next (hpassed.firstAfter hold) hcut
  | case3 gap rest hfound ih =>
    have hne (after : List Char) (h : p :: rest = p :: pattern ++ after) : False := by
      rw [after?_eq_some.2 (List.cons.inj h).2] at hfound
      cases hfound
    obtain ⟨before, last, hparts, hcut⟩ := ih (hpassed.push hne)
    refine ⟨before, last, ?_, by simpa using hcut⟩
    rw [gapsFrom, if_pos rfl]
    split
    next h => cases hfound.symm.trans h
    next => exact hparts
  | case4 gap c rest hne ih =>
    obtain ⟨before, last, hparts, hcut⟩ := ih (hpassed.push fun after h => hne (List.cons.inj h).1.symm)
    refine ⟨before, last, ?_, by simpa using hcut⟩
    rw [gapsFrom, if_neg hne, hparts]

/-! ## Joined with another text -/

/-- A word is met on one side of another one that shares no character with it. -/
theorem infix_of_apart {w n a b : List Char} (hn : n ≠ []) (happart : ∀ c ∈ n, c ∉ w) (h : w <:+: a ++ n ++ b) :
    w <:+: a ∨ w <:+: b := by
  obtain ⟨x, y, hxy⟩ := h
  rw [List.append_assoc a] at hxy
  rcases List.append_eq_append_iff.1 hxy with ⟨z, ha, -⟩ | ⟨z, hz, hb⟩
  · exact .inl ⟨x, z, ha.symm⟩
  rcases List.append_eq_append_iff.1 hz with ⟨t, -, hw⟩ | ⟨t, -, ht⟩
  -- the word begins in `a` and ends behind it: with nothing, or with the first character of `n`
  · cases z with
    | nil => exact .inl ⟨x, [], by rw [hz, List.append_nil, List.append_nil]⟩
    | cons c z =>
      obtain ⟨n₀, ns, rfl⟩ := List.exists_cons_of_ne_nil hn
      obtain rfl := (List.cons.inj hb).1
      exact absurd (hw ▸ List.mem_append_right _ List.mem_cons_self) (happart n₀ List.mem_cons_self)
  -- the word begins behind `a`: behind `n` too, or its first character is in `n`
  · rw [ht, List.append_assoc] at hb
    rcases List.append_eq_append_iff.1 hb with ⟨s, -, hb⟩ | ⟨s, hn, hb⟩
    · exact .inr ⟨s, y, by rw [hb, List.append_assoc]⟩
    cases s with
    | nil => exact .inr ⟨[], y, hb⟩
    | cons c s =>
      cases w with
      | nil => exact .inr List.nil_infix
      | cons d w =>
        obtain rfl := (List.cons.inj hb).1
        exact absurd List.mem_cons_self (happart d (hn ▸ List.mem_append_right _ List.mem_cons_self))

/-- Where a cut is joined with a text that shares no character with `old`, `old` occurs no more. -/
theorem Cut.not_occurs (hold : old ≠ "") (h : Cut old text before last) (hnew : new ≠ "")
    (happart : ∀ c ∈ new.toList, c ∉ old.toList) : ¬ Occurs old (new.intercalate (before ++ [last])) := by
  induction before generalizing text with
  | nil =>
    rw [List.nil_append, String.intercalate_singleton]
    exact h.rest
  | cons g before ih =>
    obtain ⟨hg, rest, -, hcut⟩ := h.of_cons
    intro hoccurs
    rw [occurs_iff hold, intercalate_cons, String.toList_append, String.toList_append] at hoccurs
    rcases infix_of_apart (fun h => hnew (String.toList_eq_nil_iff.1 h)) happart hoccurs with hin | hin
    · obtain ⟨x, y, hxy⟩ := hin
      have hx := (firstAfter_iff hold).1 hg x (y ++ old.toList) (by rw [← hxy, List.append_assoc])
      have hlength := congrArg List.length hxy
      rw [hx] at hlength
      simp only [List.length_append] at hlength
      exact hold (String.toList_eq_nil_iff.1 (List.length_eq_zero_iff.1 (by omega)))
    · exact ih hcut ((occurs_iff hold).2 hin)

/-! ## Replacing -/

/-- A replacement cuts a text, in the only way there is, and joins it again: so it counts what a scan from left to right meets,
whatever stands there afterwards, and leaves nothing of a text of other characters. All of its cuts are between characters. -/
theorem replaceLiteral_cut (hold : old ≠ "") : ∃ before last, Cut old text before last ∧
    (∀ before' last', Cut old text before' last' → before' = before ∧ last' = last) ∧
    (∀ new, replaceLiteral text old new = (new.intercalate (before ++ [last]), before.length)) ∧
    (∀ new, new ≠ "" → (∀ c ∈ new.toList, c ∉ old.toList) → ¬ Occurs old (replaceLiteral text old new).1) ∧
    ∀ u v : ByteArray, text.toByteArray = u ++ old.toByteArray ++ v →
      (⟨u.size⟩ : String.Pos.Raw).IsValid text ∧ (⟨(u ++ old.toByteArray).size⟩ : String.Pos.Raw).IsValid text := by
  have hscan : ∃ before last, (gaps old.toList text.toList).map String.ofList = before ++ [last] ∧
      Cut old text before last := by
    cases hchars : old.toList with
    | nil => exact absurd (String.toList_eq_nil_iff.1 hchars) hold
    | cons p pattern =>
      have h := gapsFrom_cut [] text.toList (show Passed (p :: pattern) [] _ from .start)
      rwa [← hchars, String.ofList_toList, List.reverse_nil, List.nil_append, String.ofList_toList] at h
  obtain ⟨before, last, hparts, hcut⟩ := hscan
  have hreplace (new : String) : replaceLiteral text old new = (new.intercalate (before ++ [last]), before.length) := by
    have hlength := congrArg List.length hparts
    rw [List.length_map, List.length_append, List.length_singleton] at hlength
    rw [replaceLiteral, hparts, hlength, Nat.add_sub_cancel]
  refine ⟨before, last, hcut, fun _ _ h => hcut.unique hold h, hreplace, fun new hnew happart => ?_, fun u v h => ?_⟩
  · rw [hreplace]
    exact hcut.not_occurs hold hnew happart
  · obtain ⟨x, y, rfl, rfl, rfl⟩ := split_of_bytes hold h
    rw [← String.toByteArray_append, String.size_toByteArray, String.size_toByteArray]
    exact ⟨String.Pos.Raw.isValid_iff_exists_append.2 ⟨x, old ++ y, String.append_assoc, rfl⟩,
      String.Pos.Raw.isValid_iff_exists_append.2 ⟨x ++ old, y, rfl, rfl⟩⟩

/-- The occurrences of `aa` in `aaaéaa` that overlap count once. -/
theorem replaceLiteral_cut_overlapping : "aa" ≠ "" ∧ replaceLiteral "aaaéaa" "aa" "a" = ("aaéa", 2) ∧
    ∃ before last, Cut "aa" "aaaéaa" before last ∧ before.length = 2 := by
  have hcount : replaceLiteral "aaaéaa" "aa" "a" = ("aaéa", 2) := by decide +kernel
  obtain ⟨before, last, hcut, -, hreplace, -⟩ := @replaceLiteral_cut "aa" "aaaéaa" (by decide)
  exact ⟨by decide, hcount, before, last, hcut, congrArg Prod.snd ((hreplace "a").symm.trans hcount)⟩

end Graft.Text
