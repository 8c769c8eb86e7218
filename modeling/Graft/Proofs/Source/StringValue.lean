import Graft.Proofs.Print.Lexeme
import Graft.Proofs.Source.Quotation
/-!
# The values of string literals

ECMAScript gives the value of a string literal in UTF-16 units (`Lexical.Denotes`), which may be surrogates without another
half. A literal is decoded in one pass, with a high surrogate kept back for the next unit; that is the same as writing down
all of the units first and reading them as text afterwards (`decodeString_units`).
-/

namespace Graft

namespace Lexical

open Source (isHexDigit isOctalDigit isLineBreak hexValue?)

/-! ## UTF-16 -/

def isHigh (u : Nat) : Bool := 0xD800 ≤ u && u < 0xDC00

def isLow (u : Nat) : Bool := 0xDC00 ≤ u && u < 0xE000

/-- The units of a code point, which may be that of a surrogate. -/
def utf16 (code : Nat) : List Nat :=
  if code < 0x10000 then [code] else [0xD800 + (code - 0x10000) / 0x400, 0xDC00 + (code - 0x10000) % 0x400]

/-- A unit that is not part of a pair. -/
def ofUnit (u : Nat) : Char := if isHigh u || isLow u then '\uFFFD' else Char.ofNat u

/-- Units as text: a surrogate without its other half is U+FFFD. -/
def ofUtf16 : List Nat → List Char
  | [] => []
  | [u] => [ofUnit u]
  | u :: v :: us =>
    if isHigh u && isLow v then Char.ofNat (0x10000 + (u - 0xD800) * 0x400 + (v - 0xDC00)) :: ofUtf16 us
    else ofUnit u :: ofUtf16 (v :: us)

section Utf16
variable {u v code : Nat} {us : List Nat}

theorem ofUtf16_cons (h : isHigh u = true → ∀ v ∈ us.head?, isLow v = false) :
    ofUtf16 (u :: us) = ofUnit u :: ofUtf16 us := by
  cases us with
  | nil => rfl
  | cons v us =>
    rw [ofUtf16, if_neg]
    intro hpair
    obtain ⟨hu, hv⟩ := Bool.and_eq_true_iff.1 hpair
    exact Bool.false_ne_true ((h hu v rfl).symm.trans hv)

theorem ofUtf16_pair (hu : isHigh u = true) (hv : isLow v = true) :
    ofUtf16 (u :: v :: us) = Char.ofNat (0x10000 + (u - 0xD800) * 0x400 + (v - 0xDC00)) :: ofUtf16 us := by
  rw [ofUtf16, if_pos (by rw [hu, hv]; rfl)]

/-- The units of a code point that is no surrogate are read as it. -/
theorem ofUtf16_code (hlt : code < 0x110000) (hhigh : isHigh code = false) (hlow : isLow code = false) :
    ofUtf16 (utf16 code ++ us) = Char.ofNat code :: ofUtf16 us := by
  rw [utf16]
  split
  next =>
    rw [List.singleton_append, ofUtf16_cons (fun h => absurd (hhigh.symm.trans h) Bool.false_ne_true), ofUnit, hhigh, hlow]
    rfl
  next hge =>
    have hcode : 0x10000 + (0xD800 + (code - 0x10000) / 0x400 - 0xD800) * 0x400 +
        (0xDC00 + (code - 0x10000) % 0x400 - 0xDC00) = code := by
      omega
    rw [List.cons_append, List.singleton_append, ofUtf16_pair, hcode]
    · simp only [isHigh, Bool.and_eq_true, decide_eq_true_eq]
      omega
    · simp only [isLow, Bool.and_eq_true, decide_eq_true_eq]
      omega

theorem utf16_head (hlt : code < 0x110000) (hlow : isLow code = false) : ∀ u ∈ (utf16 code ++ us).head?, isLow u = false := by
  intro u hu
  rw [utf16] at hu
  split at hu
  next =>
    cases hu
    exact hlow
  next =>
    cases hu
    simp only [isLow, Bool.and_eq_false_iff, decide_eq_false_iff_not]
    omega

theorem not_low_of_high (h : isHigh code = true) : isLow code = false := by
  simp only [isHigh, Bool.and_eq_true, decide_eq_true_eq] at h
  simp only [isLow, Bool.and_eq_false_iff, decide_eq_false_iff_not]
  omega

theorem utf16_surrogate (h : isHigh code = true ∨ isLow code = true) : utf16 code = [code] := by
  simp only [isHigh, isLow, Bool.and_eq_true, decide_eq_true_eq] at h
  rw [utf16, if_pos (by omega)]

theorem char_not_surrogate (c : Char) : c.toNat < 0x110000 ∧ isHigh c.toNat = false ∧ isLow c.toNat = false := by
  have hvalid : c.toNat < 0xD800 ∨ 0xDFFF < c.toNat ∧ c.toNat < 0x110000 := c.valid
  simp only [isHigh, isLow, Bool.and_eq_false_iff, decide_eq_false_iff_not]
  omega

/-- A text is read back from its units. -/
theorem ofUtf16_text (cs : List Char) : ofUtf16 (cs.flatMap fun c => utf16 c.toNat) = cs := by
  induction cs with
  | nil => rfl
  | cons c cs ih =>
    obtain ⟨hlt, hhigh, hlow⟩ := char_not_surrogate c
    rw [List.flatMap_cons, ofUtf16_code hlt hhigh hlow, ih, Char.ofNat_toNat]

end Utf16

/-! ## Escapes -/

/-- Single letters that stand for a control character. -/
def letters : List (Char × Nat) := [('b', 8), ('t', 9), ('n', 10), ('v', 11), ('f', 12), ('r', 13)]

def octal (d : Char) : Nat := d.toNat - '0'.toNat

/-- The code point or unit of an escape, `rest` being what comes after it. -/
inductive EscapeCode : List Char → List Char → Nat → Prop
  | letter {c : Char} {code : Nat} {rest : List Char} : (c, code) ∈ letters → EscapeCode [c] rest code
  | itself {c : Char} {rest : List Char} : c ∉ letters.map (·.1) → c ≠ 'x' → c ≠ 'u' → isOctalDigit c = false →
    isLineBreak c = false → c ≠ '\r' → EscapeCode [c] rest c.toNat
  | octal₁ {a : Char} {rest : List Char} : isOctalDigit a = true → (∀ c ∈ rest.head?, isOctalDigit c = false) →
    EscapeCode [a] rest (octal a)
  | octal₂ {a b : Char} {rest : List Char} : isOctalDigit a = true → isOctalDigit b = true →
    ('4' ≤ a ∨ ∀ c ∈ rest.head?, isOctalDigit c = false) → EscapeCode [a, b] rest (8 * octal a + octal b)
  | octal₃ {a b c : Char} {rest : List Char} : isOctalDigit a = true → a ≤ '3' → isOctalDigit b = true →
    isOctalDigit c = true → EscapeCode [a, b, c] rest (64 * octal a + 8 * octal b + octal c)
  | byte {ds rest : List Char} : ds.length = 2 → (∀ d ∈ ds, isHexDigit d = true) →
    EscapeCode ('x' :: ds) rest (hexCode ds)
  | code {e rest : List Char} {code : Nat} : CodeEscape e code → EscapeCode e rest code

/-- What may be between the backslash and the next line. -/
inductive Continues : List Char → List Char → Prop
  | lineBreak {c : Char} {rest : List Char} : isLineBreak c = true → Continues [c] rest
  | return {rest : List Char} : rest.head? ≠ some '\n' → Continues ['\r'] rest
  | returnBreak {rest : List Char} : Continues ['\r', '\n'] rest

/-- The units that a text between quotes stands for. -/
inductive Denotes (quote : Char) : List Char → List Nat → Prop
  | done : Denotes quote [] []
  | char {c : Char} {cs : List Char} {us : List Nat} : c ≠ quote → c ≠ '\\' → c ≠ '\n' → c ≠ '\r' →
    Denotes quote cs us → Denotes quote (c :: cs) (utf16 c.toNat ++ us)
  | escape {e cs : List Char} {code : Nat} {us : List Nat} : EscapeCode e cs code → Denotes quote cs us →
    Denotes quote ('\\' :: e ++ cs) (utf16 code ++ us)
  | continuation {e cs : List Char} {us : List Nat} : Continues e cs → Denotes quote cs us →
    Denotes quote ('\\' :: e ++ cs) us

section Values
variable {e rest ds body : List Char} {us us' : List Nat} {quote : Char} {n code : Nat}

theorem hexValue?_lt {d : Char} (h : hexValue? d = some n) : n < 16 := by
  unfold hexValue? at h
  split at h
  next hd =>
    have hle : d.toNat ≤ 57 := hd.2
    simp at h
    omega
  next =>
    split at h
    next hd =>
      have hle : d.toNat ≤ 102 := hd.2
      simp at h
      omega
    next =>
      split at h
      next hd =>
        have hle : d.toNat ≤ 70 := hd.2
        simp at h
        omega
      next => cases h

theorem hexCode_lt (ds : List Char) : hexCode ds < 16 ^ ds.length := by
  have step (ds : List Char) (n : Nat) :
      ds.foldl (fun n d => 16 * n + (hexValue? d).getD 0) n + 1 ≤ (n + 1) * 16 ^ ds.length := by
    induction ds generalizing n with
    | nil => simp
    | cons d ds ih =>
      have hd : (hexValue? d).getD 0 < 16 := by
        cases hv : hexValue? d with
        | none => decide
        | some v => exact hexValue?_lt hv
      calc (d :: ds).foldl (fun n d => 16 * n + (hexValue? d).getD 0) n + 1
          ≤ (16 * n + (hexValue? d).getD 0 + 1) * 16 ^ ds.length := ih _
        _ ≤ (16 * (n + 1)) * 16 ^ ds.length := Nat.mul_le_mul_right _ (by omega)
        _ = (n + 1) * 16 ^ (d :: ds).length := by rw [List.length_cons, Nat.pow_succ]; ring
  have hstep := step ds 0
  rw [Nat.zero_add, Nat.one_mul] at hstep
  exact hstep

theorem octal_lt {d : Char} (h : isOctalDigit d = true) : octal d < 8 := by
  rw [isOctalDigit, Bool.and_eq_true, decide_eq_true_eq, decide_eq_true_eq] at h
  have hle : d.toNat ≤ 55 := h.2
  have hzero : '0'.toNat = 48 := rfl
  rw [octal, hzero]
  omega

theorem EscapeCode.lt (h : EscapeCode e rest code) : code < 0x110000 := by
  cases h with
  | letter h =>
    simp only [letters, List.mem_cons, Prod.mk.injEq, List.not_mem_nil, or_false] at h
    omega
  | itself => exact (char_not_surrogate _).1
  | octal₁ ha =>
    have := octal_lt ha
    omega
  | octal₂ ha hb =>
    have := octal_lt ha
    have := octal_lt hb
    omega
  | octal₃ ha _ hb hc =>
    have := octal_lt ha
    have := octal_lt hb
    have := octal_lt hc
    omega
  | @byte ds _ hlength =>
    have h := hexCode_lt ds
    rw [hlength] at h
    omega
  | code h =>
    cases h with
    | @unit ds hlength =>
      have h := hexCode_lt ds
      rw [hlength] at h
      omega
    | braced _ _ hle => omega

theorem EscapeCode.ne_nil (h : EscapeCode e rest code) : e ≠ [] := by
  cases h with
  | code h => cases h <;> simp
  | _ => simp

theorem Continues.ne_nil (h : Continues e rest) : e ≠ [] := by
  cases h <;> simp

/-- What comes after an escape is shorter. -/
theorem length_lt_escape (e rest : List Char) : rest.length < ('\\' :: e ++ rest).length := by
  rw [List.length_append, List.length_cons]
  omega

end Values

end Lexical

namespace Source

open Lexical

variable {e rest ds body : List Char} {us : List Nat} {quote c : Char} {n code : Nat}

/-! ## One escape -/

theorem hexDigits_append (hds : ∀ d ∈ ds, isHexDigit d = true) :
    hexDigits ds.length n (ds ++ rest) = (some (ds.foldl (fun n d => 16 * n + (hexValue? d).getD 0) n), rest) := by
  induction ds generalizing n with
  | nil => rfl
  | cons d ds ih =>
    obtain ⟨hd, hds⟩ := List.forall_mem_cons.1 hds
    obtain ⟨v, hv⟩ := Option.isSome_iff_exists.1 hd
    rw [List.length_cons, List.cons_append, hexDigits, hv]
    dsimp only
    rw [ih hds, List.foldl_cons, hv, Option.getD_some, Nat.mul_comm]

theorem bracedCode?_digits (hne : ds ≠ []) (hds : ∀ d ∈ ds, isHexDigit d = true) (hle : hexCode ds ≤ 0x10FFFF) :
    bracedCode? ds = some (hexCode ds) := by
  have folded (ds : List Char) (hds : ∀ d ∈ ds, isHexDigit d = true) (n : Nat) :
      ds.foldlM (fun n c => (hexValue? c).map (n * 16 + ·)) n =
        some (ds.foldl (fun n d => 16 * n + (hexValue? d).getD 0) n) := by
    induction ds generalizing n with
    | nil => rfl
    | cons d ds ih =>
      obtain ⟨hd, hds⟩ := List.forall_mem_cons.1 hds
      obtain ⟨v, hv⟩ := Option.isSome_iff_exists.1 hd
      rw [List.foldlM_cons, hv, Option.map_some, List.foldl_cons, hv, Option.getD_some, Nat.mul_comm n]
      exact ih hds _
  rw [bracedCode?, if_neg (by simpa using hne), folded ds hds, Option.bind_some]
  · exact if_pos (Nat.lt_of_le_of_lt hle (by decide))
  · rintro rest rfl
    exact absurd (hds '+' List.mem_cons_self) (by decide)

theorem octalDigit_ne {d : Char} (h : isOctalDigit d = true) (hc : isOctalDigit c = false) : d ≠ c := by
  rintro rfl
  exact Bool.false_ne_true (hc.symm.trans h)

theorem escapeCode_octal {d : Char} (h : isOctalDigit d = true) (rest : List Char) : escapeCode (d :: rest) =
    (some (octalMore (if d ≤ '3' then 2 else 1) (octal d) rest).1,
      (octalMore (if d ≤ '3' then 2 else 1) (octal d) rest).2) := by
  have hne (c : Char) (hc : isOctalDigit c = false) : d ≠ c := octalDigit_ne h hc
  unfold escapeCode
  dsimp only
  rw [if_neg (hne 'n' rfl), if_neg (hne 't' rfl), if_neg (hne 'r' rfl), if_neg (hne 'b' rfl), if_neg (hne 'f' rfl),
    if_neg (hne 'v' rfl), if_neg (hne 'x' rfl), if_neg (hne 'u' rfl), if_pos h]
  rfl

theorem escapeCode_unit {d : Char} (h : d ≠ '\x7b') : escapeCode ('u' :: d :: rest) = hexDigits 4 0 (d :: rest) := by
  unfold escapeCode
  dsimp only
  rw [if_neg (by decide), if_neg (by decide), if_neg (by decide), if_neg (by decide), if_neg (by decide),
    if_neg (by decide), if_neg (by decide), if_pos rfl]
  split
  next heq => exact absurd (List.cons.inj heq).1 h
  next => rfl

theorem escapeCode_return (h : rest.head? ≠ some '\n') : escapeCode ('\r' :: rest) = (none, rest) := by
  unfold escapeCode
  dsimp only
  rw [if_neg (by decide), if_neg (by decide), if_neg (by decide), if_neg (by decide), if_neg (by decide),
    if_neg (by decide), if_neg (by decide), if_neg (by decide), if_neg (by decide), if_neg (by decide), if_pos rfl]
  split
  next => exact absurd rfl h
  next => rfl

theorem octalMore_stop {count : Nat} (h : ∀ c ∈ rest.head?, isOctalDigit c = false) :
    octalMore count n rest = (n, rest) := by
  cases count with
  | zero => rfl
  | succ count =>
    cases rest with
    | nil => rfl
    | cons c rest => rw [octalMore, if_neg (by rw [h c rfl]; exact Bool.false_ne_true)]

theorem octalMore_digit {count : Nat} {d : Char} (h : isOctalDigit d = true) :
    octalMore (count + 1) n (d :: rest) = octalMore count (n * 8 + octal d) rest := by
  rw [octalMore, if_pos h]
  rfl

/-- The decoder takes an escape for what it stands for. -/
theorem escapeCode_of_escape (h : EscapeCode e rest code) : escapeCode (e ++ rest) = (some code, rest) := by
  cases h with
  | letter h =>
    simp only [letters, List.mem_cons, Prod.mk.injEq, List.not_mem_nil, or_false] at h
    rcases h with ⟨rfl, rfl⟩ | ⟨rfl, rfl⟩ | ⟨rfl, rfl⟩ | ⟨rfl, rfl⟩ | ⟨rfl, rfl⟩ | ⟨rfl, rfl⟩ <;> rfl
  | itself hletters hx hu hoctal hbreak hreturn =>
    simp only [letters, List.map_cons, List.map_nil, List.mem_cons, List.not_mem_nil, or_false, not_or] at hletters
    simp [escapeCode, hletters, hx, hu, hoctal, hbreak, hreturn]
  | octal₁ ha hrest => rw [List.singleton_append, escapeCode_octal ha, octalMore_stop hrest]
  | @octal₂ a b _ ha hb hrest =>
    rw [List.cons_append, List.singleton_append, escapeCode_octal ha]
    by_cases hthree : a ≤ '3'
    · have hstop := hrest.resolve_left fun hfour => absurd (le_trans hfour hthree) (by decide)
      rw [if_pos hthree, octalMore_digit hb, octalMore_stop hstop, Nat.mul_comm]
    · rw [if_neg hthree, octalMore_digit hb, octalMore, Nat.mul_comm]
  | @octal₃ a b c _ ha hthree hb hc =>
    have hvalue : (octal a * 8 + octal b) * 8 + octal c = 64 * octal a + 8 * octal b + octal c := by omega
    rw [List.cons_append, List.cons_append, List.singleton_append, escapeCode_octal ha, if_pos hthree, octalMore_digit hb,
      octalMore_digit hc, octalMore, hvalue]
  | @byte ds _ hlength hds =>
    change hexDigits 2 0 (ds ++ rest) = _
    rw [← hlength, hexDigits_append hds]
    rfl
  | code h =>
    cases h with
    | @unit ds hlength hds =>
      obtain ⟨d, ds, rfl⟩ := List.exists_cons_of_length_eq_add_one hlength
      have hbrace : d ≠ '\x7b' := by
        rintro rfl
        exact absurd (hds _ List.mem_cons_self) (by decide)
      rw [List.cons_append, List.cons_append, escapeCode_unit hbrace, ← List.cons_append, ← hlength, hexDigits_append hds]
      rfl
    | @braced ds hne hds hle =>
      have hspan : ∀ d ∈ ds, decide (d ≠ '\x7d') = true := by
        intro d hd
        refine decide_eq_true ?_
        rintro rfl
        exact absurd (hds _ hd) (by decide)
      rw [List.append_assoc, List.cons_append, List.singleton_append]
      change (bracedCode? ((ds ++ '\x7d' :: rest).takeWhile (· ≠ '\x7d')),
        ((ds ++ '\x7d' :: rest).dropWhile (· ≠ '\x7d')).drop 1) = _
      rw [List.takeWhile_append_of_pos hspan, List.dropWhile_append_of_pos hspan,
        List.takeWhile_cons_of_neg (by decide), List.dropWhile_cons_of_neg (by decide), List.append_nil,
        bracedCode?_digits hne hds hle]
      rfl

/-- A line continuation stands for nothing. -/
theorem escapeCode_of_continues (h : Continues e rest) : escapeCode (e ++ rest) = (none, rest) := by
  cases h with
  | @lineBreak c _ hc =>
    simp only [isLineBreak, Bool.or_eq_true, decide_eq_true_eq] at hc
    rcases hc with (rfl | rfl) | rfl <;> rfl
  | «return» hrest =>
    rw [List.singleton_append]
    exact escapeCode_return hrest
  | returnBreak => rfl

end Source

namespace Lexical

open Source (isOctalDigit isLineBreak escapeCode escapeCode_of_escape escapeCode_of_continues)

variable {body rest : List Char} {us : List Nat} {quote : Char}

/-! ## What a literal denotes -/

/-- After a backslash, what a text stands for is what the decoder reads there, and the rest. -/
theorem Denotes.of_backslash (h : Denotes quote ('\\' :: body) us) : ∃ code? rest us', escapeCode body = (code?, rest) ∧
    us = code?.elim [] utf16 ++ us' ∧ Denotes quote rest us' := by
  generalize htext : '\\' :: body = text at h
  cases h with
  | done => cases htext
  | char _ hc => exact absurd (List.cons.inj htext).1.symm hc
  | escape hcode h =>
    obtain rfl := (List.cons.inj htext).2
    exact ⟨some _, _, _, escapeCode_of_escape hcode, rfl, h⟩
  | continuation hcontinues h =>
    obtain rfl := (List.cons.inj htext).2
    exact ⟨none, _, _, escapeCode_of_continues hcontinues, rfl, h⟩

/-- A text stands for one sequence of units. -/
theorem Denotes.unique {us' : List Nat} (h : Denotes quote body us) (h' : Denotes quote body us') : us' = us := by
  induction h generalizing us' with
  | done =>
    cases h'
    rfl
  | char _ hc _ _ _ ih =>
    cases h' with
    | char _ _ _ _ h' => rw [ih h']
    | escape | continuation => exact absurd rfl hc
  | escape hcode _ ih =>
    obtain ⟨_, _, us'', hread, rfl, h'⟩ := h'.of_backslash
    cases (escapeCode_of_escape hcode).symm.trans hread
    rw [ih h']
    rfl
  | continuation hcontinues _ ih =>
    obtain ⟨_, _, us'', hread, rfl, h'⟩ := h'.of_backslash
    cases (escapeCode_of_continues hcontinues).symm.trans hread
    exact ih h'

theorem Quotable.of_octal {d : Char} (hd : isOctalDigit d = true) (h : Quotable quote (d :: body)) : Quotable quote body := by
  cases h with
  | char _ _ _ _ h => exact h
  | escape => exact absurd hd (by decide)

/-- What a legacy octal escape takes from a text that can stand between quotes. -/
theorem exists_octal {d : Char} (hd : isOctalDigit d = true) (h : Quotable quote body) :
    ∃ ds rest code, body = ds ++ rest ∧ EscapeCode (d :: ds) rest code ∧ Quotable quote rest := by
  by_cases hstop : ∀ c ∈ body.head?, isOctalDigit c = false
  · exact ⟨[], body, _, rfl, .octal₁ hd hstop, h⟩
  obtain ⟨a, ha, hoctal⟩ : ∃ a ∈ body.head?, isOctalDigit a = true := by simpa using hstop
  obtain ⟨body, rfl⟩ := List.head?_eq_some_iff.1 ha
  replace h := h.of_octal hoctal
  by_cases hfour : '4' ≤ d
  · exact ⟨[a], body, _, rfl, .octal₂ hd hoctal (.inl hfour), h⟩
  by_cases hstop : ∀ c ∈ body.head?, isOctalDigit c = false
  · exact ⟨[a], body, _, rfl, .octal₂ hd hoctal (.inr hstop), h⟩
  obtain ⟨b, hb, hoctal'⟩ : ∃ b ∈ body.head?, isOctalDigit b = true := by simpa using hstop
  obtain ⟨body, rfl⟩ := List.head?_eq_some_iff.1 hb
  have hthree : d ≤ '3' := Nat.le_of_lt_succ (not_le.1 hfour)
  exact ⟨[a, b], body, _, rfl, .octal₃ hd hthree hoctal hoctal', h.of_octal hoctal'⟩

/-- Every text that can stand between quotes has a value. -/
theorem Quotable.denotes (h : Quotable quote body) : ∃ us, Denotes quote body us := by
  induction hlength : body.length using Nat.strong_induction_on generalizing body with
  | _ n ih =>
    subst hlength
    have next {e cs : List Char} {code : Nat} (hcode : EscapeCode e cs code) (hcs : Quotable quote cs)
        (hbody : body = '\\' :: e ++ cs) : ∃ us, Denotes quote body us := by
      obtain ⟨us, hus⟩ := ih cs.length (hbody ▸ length_lt_escape e cs) hcs rfl
      exact ⟨_, by rw [hbody]; exact .escape hcode hus⟩
    have line {e cs : List Char} (hcontinues : Continues e cs) (hcs : Quotable quote cs)
        (hbody : body = '\\' :: e ++ cs) : ∃ us, Denotes quote body us := by
      obtain ⟨us, hus⟩ := ih cs.length (hbody ▸ length_lt_escape e cs) hcs rfl
      exact ⟨_, by rw [hbody]; exact .continuation hcontinues hus⟩
    cases h with
    | done => exact ⟨[], .done⟩
    | @char c cs hquote hslash hline hreturn h =>
      obtain ⟨us, hus⟩ := ih cs.length (by simp) h rfl
      exact ⟨_, .char hquote hslash hline hreturn hus⟩
    | @escape e cs hescape h =>
      cases hescape with
      | lineBreak => exact line .returnBreak h rfl
      | byte hlength hds => exact next (.byte hlength hds) h rfl
      | code hcode => exact next (.code hcode) h rfl
      | @single c hx hu =>
        by_cases hoctal : isOctalDigit c = true
        · obtain ⟨ds, rest, code, rfl, hcode, hrest⟩ := exists_octal hoctal h
          exact next hcode hrest (by simp)
        by_cases hbreak : isLineBreak c = true
        · exact line (.lineBreak hbreak) h rfl
        by_cases hreturn : c = '\r'
        · subst hreturn
          refine line (.return fun hhead => ?_) h rfl
          obtain ⟨tail, rfl⟩ := List.head?_eq_some_iff.1 hhead
          cases h with
          | char _ _ hline => exact hline rfl
        by_cases hletter : c ∈ letters.map (·.1)
        · obtain ⟨⟨_, code⟩, hmem, rfl⟩ := List.mem_map.1 hletter
          exact next (.letter hmem) h rfl
        exact next (.itself hletter hx hu (Bool.eq_false_iff.2 hoctal) (Bool.eq_false_iff.2 hbreak) hreturn) h rfl

end Lexical

namespace Source

open Lexical

variable {body : List Char} {us : List Nat} {quote : Char} {code fuel : Nat}

/-! ## Decoding -/

theorem charOf_code (hlt : code < 0x110000) (hhigh : isHigh code = false) (hlow : isLow code = false) :
    (charOf code).toNat = code := by
  simp only [isHigh, isLow, Bool.and_eq_false_iff, decide_eq_false_iff_not] at hhigh hlow
  have hvalid : code.isValidChar := by
    rw [Nat.isValidChar]
    omega
  rw [charOf, if_pos hvalid, Char.ofNat, dif_pos hvalid]
  rfl

theorem charOf_pair {high low : Nat} (hhigh : isHigh high = true) (hlow : isLow low = true) :
    charOf (0x10000 + (high - 0xD800) * 0x400 + (low - 0xDC00)) =
      Char.ofNat (0x10000 + (high - 0xD800) * 0x400 + (low - 0xDC00)) := by
  simp only [isHigh, isLow, Bool.and_eq_true, decide_eq_true_eq] at hhigh hlow
  refine if_pos ?_
  rw [Nat.isValidChar]
  omega

namespace Decoded
variable {d : Decoded}

/-- Only a high surrogate waits for its other half. -/
def Waits (d : Decoded) : Prop := ∀ u ∈ d.pending, isHigh u = true

/-- The text decoded so far, and that of the units still to come. -/
def finish (d : Decoded) (us : List Nat) : List Char := d.reversed.reverse ++ ofUtf16 (d.pending.toList ++ us)

theorem flush_pending : d.flush.pending = none := by
  unfold flush
  split
  next => rfl
  next h => exact h

theorem waits_of_pending (h : d.pending = none) : d.Waits := by
  rw [Waits, h]
  rintro u ⟨⟩

/-- A surrogate that waits is alone unless the next unit is its other half. -/
theorem finish_flush (hd : d.Waits) (h : ∀ u ∈ us.head?, isLow u = false) : d.flush.finish us = d.finish us := by
  obtain ⟨reversed, pending⟩ := d
  cases pending with
  | none => rfl
  | some high =>
    have hhigh : isHigh high = true := hd high rfl
    have hunit : ofUnit high = replacement := by rw [ofUnit, hhigh]; rfl
    change (replacement :: reversed).reverse ++ ofUtf16 ([] ++ us) = reversed.reverse ++ ofUtf16 (high :: us)
    rw [ofUtf16_cons fun _ => h, hunit, List.reverse_cons, List.append_assoc]
    rfl

theorem finish_of_pending (h : d.pending = none) : d.finish us = d.reversed.reverse ++ ofUtf16 us := by
  rw [finish, h]
  rfl

theorem text_eq (hd : d.Waits) : d.text = String.ofList (d.finish []) := by
  rw [text, ← finish_flush hd (by rintro u ⟨⟩), finish_of_pending flush_pending]
  exact congrArg String.ofList (List.append_nil _).symm

theorem pushChar_eq (c : Char) : d.pushChar c = ⟨c :: d.flush.reversed, none⟩ := by
  rw [pushChar, flush_pending]

theorem waits_pushChar (c : Char) : (d.pushChar c).Waits := by
  rw [pushChar_eq]
  exact waits_of_pending rfl

theorem finish_pushChar (hd : d.Waits) (c : Char) : (d.pushChar c).finish us = d.finish (utf16 c.toNat ++ us) := by
  obtain ⟨hlt, hhigh, hlow⟩ := char_not_surrogate c
  calc (d.pushChar c).finish us
      = (c :: d.flush.reversed).reverse ++ ofUtf16 us := by rw [pushChar_eq, finish_of_pending rfl]
    _ = d.flush.reversed.reverse ++ ofUtf16 (utf16 c.toNat ++ us) := by
      rw [ofUtf16_code hlt hhigh hlow, Char.ofNat_toNat, List.reverse_cons, List.append_assoc, List.singleton_append]
    _ = d.flush.finish (utf16 c.toNat ++ us) := (finish_of_pending flush_pending).symm
    _ = d.finish (utf16 c.toNat ++ us) := finish_flush hd (utf16_head hlt hlow)

theorem push_high (h : isHigh code = true) : d.push code = ⟨d.flush.reversed, some code⟩ := by
  simp only [isHigh, Bool.and_eq_true, decide_eq_true_eq] at h
  rw [push, if_pos h]

theorem push_alone (h : isLow code = true) (hd : d.pending = none) : d.push code = ⟨replacement :: d.reversed, none⟩ := by
  simp only [isLow, Bool.and_eq_true, decide_eq_true_eq] at h
  rw [push, if_neg (by omega), if_pos h, hd]

theorem push_pair {high : Nat} (h : isLow code = true) (hd : d.pending = some high) :
    d.push code = ⟨charOf (0x10000 + (high - 0xD800) * 0x400 + (code - 0xDC00)) :: d.reversed, none⟩ := by
  simp only [isLow, Bool.and_eq_true, decide_eq_true_eq] at h
  rw [push, if_neg (by omega), if_pos h, hd]

theorem push_other (hhigh : isHigh code = false) (hlow : isLow code = false) : d.push code = d.pushChar (charOf code) := by
  simp only [isHigh, isLow, Bool.and_eq_false_iff, decide_eq_false_iff_not] at hhigh hlow
  rw [push, if_neg (by omega), if_neg (by omega)]

theorem waits_push : (d.push code).Waits := by
  cases hhigh : isHigh code with
  | true =>
    rw [push_high hhigh]
    rintro u ⟨⟩
    exact hhigh
  | false =>
    cases hlow : isLow code with
    | true =>
      cases hpending : d.pending with
      | none =>
        rw [push_alone hlow hpending]
        exact waits_of_pending rfl
      | some high =>
        rw [push_pair hlow hpending]
        exact waits_of_pending rfl
    | false =>
      rw [push_other hhigh hlow]
      exact waits_pushChar _

/-- A unit or a code point is the next of those that are still to come. -/
theorem finish_push (hd : d.Waits) (hlt : code < 0x110000) : (d.push code).finish us = d.finish (utf16 code ++ us) := by
  cases hhigh : isHigh code with
  | true =>
    have hlow := not_low_of_high hhigh
    rw [push_high hhigh, ← finish_flush hd (utf16_head hlt hlow), finish_of_pending flush_pending, utf16_surrogate (.inl hhigh)]
    rfl
  | false =>
    cases hlow : isLow code with
    | true =>
      rw [utf16_surrogate (.inr hlow), List.singleton_append]
      cases hpending : d.pending with
      | none =>
        have hunit : ofUnit code = replacement := by rw [ofUnit, hhigh, hlow]; rfl
        rw [push_alone hlow hpending, finish_of_pending rfl, finish_of_pending hpending, List.reverse_cons, List.append_assoc,
          ofUtf16_cons (fun h => absurd (hhigh.symm.trans h) Bool.false_ne_true), hunit, List.singleton_append]
      | some high =>
        have hwaits : isHigh high = true := hd high hpending
        rw [push_pair hlow hpending, finish_of_pending rfl, finish, hpending, List.reverse_cons, List.append_assoc,
          Option.toList_some, List.singleton_append, List.singleton_append, ofUtf16_pair hwaits hlow, charOf_pair hwaits hlow]
    | false => rw [push_other hhigh hlow, finish_pushChar hd, charOf_code hlt hhigh hlow]

end Decoded

open Decoded in
/-- The decoder adds to a text what is still to come of it. -/
theorem decodeChars_units {d : Decoded} (h : Denotes quote body us) (hfuel : body.length < fuel) (hd : d.Waits) :
    (decodeChars fuel d body).Waits ∧ (decodeChars fuel d body).finish [] = d.finish us := by
  induction h generalizing d fuel with
  | done =>
    obtain ⟨fuel, rfl⟩ := Nat.exists_eq_add_one_of_ne_zero (Nat.ne_of_gt hfuel)
    exact ⟨hd, rfl⟩
  | char _ hslash _ _ _ ih =>
    obtain ⟨fuel, rfl⟩ := Nat.exists_eq_add_one_of_ne_zero (Nat.ne_of_gt (Nat.zero_lt_of_lt hfuel))
    rw [decodeChars, if_neg hslash]
    · obtain ⟨hwaits, htext⟩ := ih (Nat.lt_of_succ_lt_succ hfuel) (waits_pushChar _)
      exact ⟨hwaits, htext.trans (finish_pushChar hd _)⟩
    · simp [hslash]
  | @escape e cs code us hcode _ ih =>
    obtain ⟨fuel, rfl⟩ := Nat.exists_eq_add_one_of_ne_zero (Nat.ne_of_gt (Nat.zero_lt_of_lt hfuel))
    rw [List.cons_append, decodeChars, if_pos rfl, escapeCode_of_escape hcode]
    · have hlt : cs.length < fuel := Nat.lt_of_lt_of_le (length_lt_escape e cs) (Nat.le_of_lt_succ hfuel)
      obtain ⟨hwaits, htext⟩ := ih hlt waits_push
      exact ⟨hwaits, htext.trans (finish_push hd hcode.lt)⟩
    · simp [hcode.ne_nil]
  | @continuation e cs us hcontinues _ ih =>
    obtain ⟨fuel, rfl⟩ := Nat.exists_eq_add_one_of_ne_zero (Nat.ne_of_gt (Nat.zero_lt_of_lt hfuel))
    rw [List.cons_append, decodeChars, if_pos rfl, escapeCode_of_continues hcontinues]
    · have hlt : cs.length < fuel := Nat.lt_of_lt_of_le (length_lt_escape e cs) (Nat.le_of_lt_succ hfuel)
      exact ih hlt hd
    · simp [hcontinues.ne_nil]

theorem unquoted_literal (hquote : isQuote quote = true) (body : List Char) :
    unquoted (String.ofList (quote :: body ++ [quote])) = body := by
  have hsize : ¬ (String.ofList (quote :: body ++ [quote])).utf8ByteSize < 2 := by
    have hone : (String.ofList [quote]).utf8ByteSize = 1 := by
      simp only [isQuote, Bool.or_eq_true, decide_eq_true_eq] at hquote
      rcases hquote with rfl | rfl <;> rfl
    rw [← List.singleton_append, String.ofList_append, String.ofList_append, String.utf8ByteSize_append,
      String.utf8ByteSize_append, hone]
    omega
  rw [unquoted, if_neg hsize, String.toList_ofList, List.cons_append, List.tail_cons, List.dropLast_concat]

/-- A string literal is decoded as the text of the units that it denotes. -/
theorem decodeString_units (hquote : isQuote quote = true) (h : Quotable quote body) :
    ∃ us, Denotes quote body us ∧ (∀ us', Denotes quote body us' → us' = us) ∧
      decodeString (String.ofList (quote :: body ++ [quote])) = String.ofList (ofUtf16 us) := by
  obtain ⟨us, hus⟩ := h.denotes
  refine ⟨us, hus, fun us' h' => hus.unique h', ?_⟩
  obtain ⟨hwaits, htext⟩ := decodeChars_units hus (Nat.lt_succ_self _) (Decoded.waits_of_pending (d := ⟨[], none⟩) rfl)
  rw [decodeString, unquoted_literal hquote, Decoded.text_eq hwaits, htext, Decoded.finish_of_pending rfl]
  rfl

/-- The halves of a character are written by two escapes on two lines, and a digit comes after an octal escape. -/
theorem decodeString_units_continued :
    isQuote '\'' = true ∧ Quotable '\'' "\\uD83D\\\n\\uDE00\\778".toList ∧
      decodeString (String.ofList ('\'' :: "\\uD83D\\\n\\uDE00\\778".toList ++ ['\''])) = "😀?8" ∧
      ∃ us, Denotes '\'' "\\uD83D\\\n\\uDE00\\778".toList us ∧ String.ofList (ofUtf16 us) = "😀?8" := by
  have hvalue : decodeString (String.ofList ('\'' :: "\\uD83D\\\n\\uDE00\\778".toList ++ ['\''])) = "😀?8" := by
    decide +kernel
  have hbody : Quotable '\'' "\\uD83D\\\n\\uDE00\\778".toList :=
    .escape (.code (@CodeEscape.unit ['D', '8', '3', 'D'] rfl (List.all_eq_true.1 rfl)))
      (.escape (.single (c := '\n') (by decide) (by decide))
        (.escape (.code (@CodeEscape.unit ['D', 'E', '0', '0'] rfl (List.all_eq_true.1 rfl)))
          (.escape (.single (c := '7') (by decide) (by decide))
            (.char (by decide) (by decide) (by decide) (by decide)
              (.char (by decide) (by decide) (by decide) (by decide) .done)))))
  obtain ⟨us, hus, -, hdecoded⟩ := decodeString_units rfl hbody
  exact ⟨rfl, hbody, hvalue, us, hus, hdecoded.symm.trans hvalue⟩

end Source
end Graft
