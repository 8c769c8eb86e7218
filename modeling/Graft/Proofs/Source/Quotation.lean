import Graft.Proofs.Number.Rounding
import Graft.Source.Literal
import Graft.Source.Token
import Mathlib.Tactic.IntervalCases
/-!
# Quotation

A quoted text is one string token, whatever follows it (`nextToken_quote`), and it is decoded as the text that was quoted
(`decodeString_quote`). Both go escape by escape, so that all there is to know about an escape is `Escapes`.
-/

namespace Graft.Source

open Json (escape? escapeChars quote)

variable {cs e tail rest : List Char} {c : Char} {n count : Nat}

/-! ## One character -/

/-- What stands behind the backslash of an escape for `c`. -/
structure Escapes (c : Char) (tail : List Char) : Prop where
  nonempty : tail ≠ []
  code (rest : List Char) : escapeCode (tail ++ rest) = (some c.toNat, rest)
  length (rest : List Char) : escapeLength? (tail ++ rest) = some tail.length

theorem hexValue?_digitChar (h : n < 16) : hexValue? (Nat.digitChar n) = some n := by
  interval_cases n <;> rfl

theorem escapes_unicode (h : c.toNat < 32) :
    Escapes c ['u', '0', '0', Nat.digitChar (c.toNat / 16), Nat.digitChar (c.toNat % 16)] where
  nonempty := by simp
  code rest := by
    have hhigh := hexValue?_digitChar (show c.toNat / 16 < 16 by omega)
    have hlow := hexValue?_digitChar (show c.toNat % 16 < 16 by omega)
    have hzero : hexValue? '0' = some 0 := rfl
    change hexDigits 4 0 ('0' :: '0' :: Nat.digitChar (c.toNat / 16) :: Nat.digitChar (c.toNat % 16) :: rest) = _
    simp only [hexDigits, hzero, hhigh, hlow]
    rw [show ((0 * 16 + 0) * 16 + 0) * 16 + c.toNat / 16 = c.toNat / 16 by omega,
      show c.toNat / 16 * 16 + c.toNat % 16 = c.toNat by omega]
  length rest := by
    have hhex {n : Nat} (hn : n < 16) : isHexDigit (Nat.digitChar n) = true := by
      rw [isHexDigit, hexValue?_digitChar hn]
      rfl
    change (unicodeEscapeLength? ('0' :: '0' :: Nat.digitChar (c.toNat / 16) :: Nat.digitChar (c.toNat % 16) :: rest)).map
      (· + 1) = some 5
    rw [unicodeEscapeLength?, hhex (show c.toNat / 16 < 16 by omega), hhex (show c.toNat % 16 < 16 by omega)]
    · rfl
    · nofun

theorem escape_some (h : escape? c = some e) : ∃ tail, e = '\\' :: tail ∧ Escapes c tail := by
  have short {letter : Char} (hcode : ∀ rest, escapeCode (letter :: rest) = (some c.toNat, rest))
      (hlength : ∀ rest, escapeLength? (letter :: rest) = some 1) (he : some ['\\', letter] = some e) :
      ∃ tail, e = '\\' :: tail ∧ Escapes c tail :=
    ⟨[letter], (Option.some.inj he).symm, by simp, hcode, hlength⟩
  rw [escape?] at h
  -- The short escapes, one by one. What is left is a control character, which is written by its code.
  by_cases h₁ : c = '"'
  · rw [if_pos h₁] at h
    subst h₁
    exact short (fun _ => rfl) (fun _ => rfl) h
  by_cases h₂ : c = '\\'
  · rw [if_neg h₁, if_pos h₂] at h
    subst h₂
    exact short (fun _ => rfl) (fun _ => rfl) h
  by_cases h₃ : c = '\n'
  · rw [if_neg h₁, if_neg h₂, if_pos h₃] at h
    exact short (fun _ => h₃ ▸ rfl) (fun _ => rfl) h
  by_cases h₄ : c = '\r'
  · rw [if_neg h₁, if_neg h₂, if_neg h₃, if_pos h₄] at h
    exact short (fun _ => h₄ ▸ rfl) (fun _ => rfl) h
  by_cases h₅ : c = '\t'
  · rw [if_neg h₁, if_neg h₂, if_neg h₃, if_neg h₄, if_pos h₅] at h
    exact short (fun _ => h₅ ▸ rfl) (fun _ => rfl) h
  rw [if_neg h₁, if_neg h₂, if_neg h₃, if_neg h₄, if_neg h₅] at h
  by_cases h₆ : c.toNat = 8
  · rw [if_pos h₆] at h
    exact short (fun _ => h₆ ▸ rfl) (fun _ => rfl) h
  by_cases h₇ : c.toNat = 12
  · rw [if_neg h₆, if_pos h₇] at h
    exact short (fun _ => h₇ ▸ rfl) (fun _ => rfl) h
  rw [if_neg h₆, if_neg h₇] at h
  split at h
  next hlt => exact ⟨_, (Option.some.inj h).symm, escapes_unicode hlt⟩
  next => cases h

/-- A character without escape stands for itself. -/
theorem escape_none (h : escape? c = none) : c ≠ '"' ∧ c ≠ '\\' ∧ c ≠ '\n' ∧ c ≠ '\r' := by
  refine ⟨?_, ?_, ?_, ?_⟩ <;>
  · rintro rfl
    cases h

/-! ## The length of a quotation -/

theorem stringLength?_skip (q : Char) (tail : List Char) :
    stringLength? q tail.length count (tail ++ rest) = stringLength? q 0 (count + tail.length) rest := by
  induction tail generalizing count with
  | nil => rfl
  | cons c tail ih =>
    rw [List.length_cons, List.cons_append, stringLength?, ih]
    congr 1
    omega

theorem stringLength?_escapeChars (cs rest : List Char) (count : Nat) :
    stringLength? '"' 0 count (escapeChars cs ++ '"' :: rest) = some (count + (escapeChars cs).length + 1) := by
  induction cs generalizing count with
  | nil => rfl
  | cons c cs ih =>
    rw [escapeChars]
    cases hesc : escape? c with
    | none =>
      obtain ⟨h₁, h₂, h₃, h₄⟩ := escape_none hesc
      rw [Option.getD_none, List.singleton_append, List.cons_append, stringLength?, if_neg h₂, if_neg h₁, if_neg, ih,
        List.length_cons]
      · congr 1
        omega
      · simp [h₃, h₄]
    | some e =>
      obtain ⟨tail, rfl, htail⟩ := escape_some hesc
      rw [Option.getD_some, List.cons_append, List.cons_append, List.append_assoc, stringLength?, if_pos rfl, htail.length]
      dsimp only
      rw [stringLength?_skip, ih, List.length_cons, List.length_append]
      congr 1
      omega

theorem toList_quote (s : String) : (quote s).toList = '"' :: (escapeChars s.toList ++ ['"']) := by
  rw [quote, String.toList_ofList, List.cons_append]

/-- A quotation is one token. -/
theorem nextToken_quote (s : String) (rest : List Char) : nextToken ((quote s).toList ++ rest) = (.string (quote s), rest) := by
  have hlength : (quote s).toList.length = (escapeChars s.toList).length + 1 + 1 := by simp [toList_quote]
  have htext : (quote s).toList ++ rest = '"' :: (escapeChars s.toList ++ '"' :: rest) := by simp [toList_quote]
  rw [htext, nextToken, if_pos (by decide), stringLength?_escapeChars, ← htext, Option.map_some, Option.getD_some, Nat.zero_add,
    ← hlength, cut, if_neg (by omega), List.take_left, List.drop_left, String.ofList_toList]

/-! ## The value of a quotation -/

theorem charOf_toNat (c : Char) : charOf c.toNat = c := by
  rw [charOf, if_pos (show c.toNat.isValidChar from c.valid), Char.ofNat_toNat]

/-- A character that is no surrogate, as none is, adds itself. -/
theorem push_char (acc : List Char) (c : Char) : Decoded.push ⟨acc, none⟩ c.toNat = ⟨c :: acc, none⟩ := by
  have hvalid : c.toNat < 0xD800 ∨ 0xDFFF < c.toNat ∧ c.toNat < 0x110000 := c.valid
  rw [Decoded.push, if_neg (by omega), if_neg (by omega), charOf_toNat]
  rfl

theorem decodeChars_escapeChars (cs acc : List Char) {fuel : Nat} (hfuel : (escapeChars cs).length < fuel) :
    decodeChars fuel ⟨acc, none⟩ (escapeChars cs) = ⟨cs.reverse ++ acc, none⟩ := by
  -- On the text that was escaped: each of its characters takes one step of the decoder.
  induction cs generalizing acc fuel with
  | nil =>
    cases fuel with
    | zero => cases hfuel
    | succ fuel => rfl
  | cons c cs ih =>
    obtain ⟨fuel, rfl⟩ : ∃ n, fuel = n + 1 := ⟨fuel - 1, by omega⟩
    rw [escapeChars, List.length_append] at hfuel
    rw [escapeChars, List.reverse_cons, List.append_assoc, List.singleton_append]
    cases hesc : escape? c with
    | none =>
      obtain ⟨-, h, -, -⟩ := escape_none hesc
      rw [hesc] at hfuel
      rw [Option.getD_none, List.singleton_append, decodeChars, if_neg h]
      · refine ih (c :: acc) ?_
        simp at hfuel
        omega
      · simp [h]
    | some e =>
      obtain ⟨tail, rfl, htail⟩ := escape_some hesc
      rw [hesc] at hfuel
      rw [Option.getD_some, List.cons_append, decodeChars, if_pos rfl, htail.code]
      · dsimp only
        rw [push_char]
        refine ih (c :: acc) ?_
        simp at hfuel
        omega
      · simp [htail.nonempty]

/-- A quotation is decoded as the text that was quoted. -/
theorem decodeString_quote (s : String) : decodeString (quote s) = s := by
  have hsize : ¬ (quote s).utf8ByteSize < 2 := by
    rw [quote, ← List.singleton_append, String.ofList_append, String.ofList_append, String.utf8ByteSize_append,
      String.utf8ByteSize_append, show (String.ofList ['"']).utf8ByteSize = 1 from rfl]
    omega
  have hinner : unquoted (quote s) = escapeChars s.toList := by
    rw [unquoted, if_neg hsize, toList_quote, List.tail_cons, List.dropLast_concat]
  rw [decodeString, hinner, decodeChars_escapeChars _ _ (Nat.lt_succ_self _), Decoded.text, Decoded.flush]
  simp

end Graft.Source
