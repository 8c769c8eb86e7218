import Graft.Proofs.Print.Lexeme
import Graft.Print.Printer
/-!
# From a text to its tokens

`Lexes` reads a text of one line: at every place the longest token there is, blanks in between, and never where a comment
would open. A text reads in one way at most (`Lexes.unique`). For printed pieces it is enough that each token stands in
front of the text that follows it (`Spaced`), and one look at the next character settles that.
-/

namespace Graft.Lexical

open Unicode (isAsciiLetter isAsciiDigit)

variable {A : Alphabet} {w w' r r' cs : List Char} {c : Char}

/-! ## Reading -/

/-- What opens a comment; the last two do so in scripts only. -/
def openers : List (List Char) := ["//", "/*", "<!--", "-->"].map String.toList

def opensComment (cs : List Char) : Bool := openers.any fun o => o.isPrefixOf cs

/-- `w` is the token that a reader takes from `w ++ r`. -/
structure Stands (A : Alphabet) (w r : List Char) : Prop where
  here : TokenAt A w r
  longest : ∀ w' r', TokenAt A w' r' → w' ++ r' = w ++ r → w'.length ≤ w.length
  uncommented : opensComment (w ++ r) = false

inductive Lexes (A : Alphabet) : List Char → List String → Prop
  | done : Lexes A [] []
  | blank {cs : List Char} {ts : List String} : Lexes A cs ts → Lexes A (' ' :: cs) ts
  | token {w r : List Char} {ts : List String} : Stands A w r → Lexes A r ts → Lexes A (w ++ r) (String.ofList w :: ts)

/-! ## What a first character says -/

theorem Alphabet.start_of_digit (A : Alphabet) (h : isAsciiDigit c = true) : A.start c = false := by
  have hd := digit_not_letter h
  simp only [isAsciiDigit, Bool.and_eq_true, decide_eq_true_eq] at h
  rw [A.ascii_start c (le_trans (by decide) h.1) (le_trans h.2 (by decide)), hd]

theorem Alphabet.start_of_mark (A : Alphabet) (h : isMark c = true) : A.start c = false := by
  obtain ⟨h1, h2, -, -, -, h3⟩ := ascii_of_isMark h
  rw [A.ascii_start c h1 h2, h3]

theorem Alphabet.start_of_quote (A : Alphabet) (h : isQuote c = true) : A.start c = false := by
  simp only [isQuote, Bool.or_eq_true, decide_eq_true_eq] at h
  rcases h with rfl | rfl
  · rw [A.ascii_start _ (by decide) (by decide)]; decide
  · rw [A.ascii_start _ (by decide) (by decide)]; decide

theorem quote_plain (h : isQuote c = true) : isMark c = false ∧ isAsciiDigit c = false ∧ c ≠ '\\' ∧ c ≠ ' ' := by
  simp only [isQuote, Bool.or_eq_true, decide_eq_true_eq] at h
  rcases h with rfl | rfl <;> decide

theorem punctuator_head (h : w ∈ punctuators) :
    ∃ c cs, w = c :: cs ∧ isMark c = true ∧ (c = '.' → ∀ d ∈ cs.head?, isMark d = true) := by
  have key : ∀ w ∈ punctuators, w ≠ [] ∧ w.head?.all isMark = true ∧
      (w.head? = some '.' → w.tail.head?.all isMark = true) := by decide
  obtain ⟨h0, h1, h2⟩ := key w h
  cases w with
  | nil => exact absurd rfl h0
  | cons c cs =>
    refine ⟨c, cs, rfl, h1, fun hc d hd => ?_⟩
    have := h2 (by rw [hc]; rfl)
    rwa [List.tail_cons, hd] at this

/-- The kind of a token shows at its first character, or at the second after a point. -/
theorem IsToken.kind (h : IsToken A (c :: cs)) :
    ((A.start c = true ∨ c = '\\') ∧ ∃ v, IsName A (c :: cs) v) ∨
    ((isAsciiDigit c = true ∨ c = '.' ∧ ∃ d ∈ cs.head?, isAsciiDigit d = true) ∧ IsNumeral (c :: cs)) ∨
    (isQuote c = true ∧ IsString (c :: cs)) ∨
    (isMark c = true ∧ (c = '.' → ∀ d ∈ cs.head?, isMark d = true) ∧ c :: cs ∈ punctuators) := by
  rcases h with ⟨v, h⟩ | h | h | h
  · obtain ⟨_, _, he, hc⟩ := h.head
    cases he
    exact .inl ⟨hc, v, h⟩
  · obtain ⟨_, _, he, hc⟩ := h.head
    cases he
    refine .inr (.inl ⟨?_, h⟩)
    rcases hc with hc | ⟨hc, d, ds, rfl, hd⟩
    · exact .inl hc
    · exact .inr ⟨hc, d, rfl, hd⟩
  · obtain ⟨quote, body, hq, hb, he⟩ := h
    obtain ⟨rfl, rfl⟩ := List.cons.inj he
    exact .inr (.inr (.inl ⟨hq, _, body, hq, hb, rfl⟩))
  · obtain ⟨_, _, he, h1, h2⟩ := punctuator_head h
    cases he
    exact .inr (.inr (.inr ⟨h1, h2, h⟩))

theorem digit_plain (h : isAsciiDigit c = true) : isMark c = false ∧ isQuote c = false ∧ c ≠ '\\' := by
  refine ⟨?_, ?_, ?_⟩
  · by_contra hm
    simp [ascii_of_isMark (Bool.not_eq_false _ ▸ hm)] at h
  · by_contra hq
    simp [quote_plain (Bool.not_eq_false _ ▸ hq)] at h
  · rintro rfl
    revert h; decide

/-- A character that starts a name. -/
def startsName (A : Alphabet) (c : Char) : Bool := A.start c || c = '\\'

theorem name_plain (h : startsName A c = true) : isMark c = false ∧ isQuote c = false ∧ isAsciiDigit c = false := by
  rw [startsName, Bool.or_eq_true, decide_eq_true_eq] at h
  rcases h with h | rfl
  · refine ⟨?_, ?_, ?_⟩
    · by_contra hm
      simp [A.start_of_mark (Bool.not_eq_false _ ▸ hm)] at h
    · by_contra hq
      simp [A.start_of_quote (Bool.not_eq_false _ ▸ hq)] at h
    · by_contra hd
      simp [A.start_of_digit (Bool.not_eq_false _ ▸ hd)] at h
  · decide

theorem IsToken.name (h : IsToken A (c :: cs)) (hc : startsName A c = true) : ∃ v, IsName A (c :: cs) v := by
  obtain ⟨hm, hq, hd⟩ := name_plain hc
  rcases h.kind with ⟨-, hv⟩ | ⟨hk | ⟨rfl, -⟩, -⟩ | ⟨hk, -⟩ | ⟨hk, -⟩
  · exact hv
  · simp [hd] at hk
  · exact absurd hm (by decide)
  · simp [hq] at hk
  · simp [hm] at hk

theorem IsToken.numeral (h : IsToken A (c :: cs)) (hc : isAsciiDigit c = true ∨ c = '.' ∧ ∃ d ∈ cs.head?, isAsciiDigit d = true) :
    IsNumeral (c :: cs) := by
  rcases h.kind with ⟨hk, -⟩ | ⟨-, hn⟩ | ⟨hk, -⟩ | ⟨hk, hp, -⟩
  · rcases hc with hc | ⟨rfl, -⟩
    · simp [A.start_of_digit hc, (digit_plain hc).2.2] at hk
    · simp [A.start_of_mark (show isMark '.' = true by decide)] at hk
  · exact hn
  · rcases hc with hc | ⟨rfl, -⟩
    · simp [digit_plain hc] at hk
    · exact absurd hk (by decide)
  · rcases hc with hc | ⟨rfl, d, hd, hdd⟩
    · simp [digit_plain hc] at hk
    · have hm := hp rfl d hd
      simp [digit_plain hdd] at hm

theorem IsToken.string (h : IsToken A (c :: cs)) (hc : isQuote c = true) : IsString (c :: cs) := by
  obtain ⟨hm, hd, hb, -⟩ := quote_plain hc
  rcases h.kind with ⟨hk, -⟩ | ⟨hk | ⟨rfl, -⟩, -⟩ | ⟨-, hs⟩ | ⟨hk, -⟩
  · simp [A.start_of_quote hc, hb] at hk
  · simp [hd] at hk
  · exact absurd hc (by decide)
  · exact hs
  · simp [hm] at hk

theorem IsToken.punctuator (h : IsToken A (c :: cs)) (hc : isMark c = true)
    (hp : c = '.' → ∀ d ∈ cs.head?, isAsciiDigit d = false) : c :: cs ∈ punctuators := by
  obtain ⟨-, -, hb, hq, hd, -⟩ := ascii_of_isMark hc
  rcases h.kind with ⟨hk, -⟩ | ⟨hk | ⟨he, d, hcd, hdd⟩, -⟩ | ⟨hk, -⟩ | ⟨-, -, hw⟩
  · simp [A.start_of_mark hc, hb] at hk
  · simp [hd] at hk
  · simp [hp he d hcd] at hdd
  · simp [hq] at hk
  · exact hw

theorem mark_of_opens (h : opensComment (c :: cs) = true) : c ∈ ['/', '<', '-'] := by
  have key : ∀ o ∈ openers, o.head?.all fun x => x ∈ ['/', '<', '-'] := by decide
  have hne : ∀ o ∈ openers, o ≠ [] := by decide
  obtain ⟨o, ho, hp⟩ := List.any_eq_true.1 h
  cases o with
  | nil => exact absurd rfl (hne _ ho)
  | cons x y =>
    have hx := key _ ho
    obtain ⟨rfl, -⟩ := List.cons_prefix_cons.1 (List.isPrefixOf_iff_prefix.1 hp)
    simpa using hx

theorem mark_of_opener (h : c ∈ ['/', '<', '-']) : isMark c = true := by
  simp only [List.mem_cons, List.not_mem_nil, or_false] at h
  rcases h with rfl | rfl | rfl <;> rfl

/-! ## When a token stands -/

theorem longer (he : w' ++ r' = w ++ r) (hl : w.length < w'.length) : ∃ c x, w' = w ++ c :: x ∧ r.head? = some c := by
  rcases List.append_eq_append_iff.1 he with ⟨x, rfl, -⟩ | ⟨x, rfl, rfl⟩
  · rw [List.length_append] at hl
    omega
  · cases x with
    | nil => simp at hl
    | cons c x => exact ⟨c, x, rfl, rfl⟩

/-- It is enough that no token goes on with the next character. -/
theorem stands_of (h : TokenAt A w r) (hl : ∀ c ∈ r.head?, ∀ x, ¬ IsToken A (w ++ c :: x))
    (ho : opensComment (w ++ r) = false) : Stands A w r where
  here := h
  longest := by
    intro w' r' h' he
    by_contra hlt
    obtain ⟨c, x, rfl, hc⟩ := longer he (by omega)
    exact hl c hc x h'.token
  uncommented := ho

theorem not_opens_of_head (h : c ∉ ['/', '<', '-']) : opensComment (c :: cs) = false := by
  by_contra ho
  exact h (mark_of_opens (Bool.not_eq_false _ ▸ ho))

theorem not_opens_of_name (h : startsName A c = true) : opensComment (c :: cs) = false := by
  apply not_opens_of_head
  intro hc
  exact absurd (mark_of_opener hc) (by simp [name_plain h])

theorem stands_name {v : List Char} (h : IsName A w v) (hr : ∀ c ∈ r.head?, isNameChar A c = false) : Stands A w r := by
  obtain ⟨c, cs, rfl, hc⟩ := h.head
  have hc : startsName A c = true := by simpa [startsName] using hc
  obtain ⟨hm, hq, hd⟩ := name_plain hc
  apply stands_of
  · refine ⟨.inl ⟨v, h⟩, fun hn => ?_, fun he => ?_⟩
    · obtain ⟨_, _, he, hk | ⟨hk, -⟩⟩ := hn.head
      · cases he
        simp [hd] at hk
      · cases he
        exact absurd (hk ▸ hm) (by decide)
    · cases he
      exact absurd hm (by decide)
  · intro d hdr x hx
    have hx : IsToken A (c :: (cs ++ d :: x)) := hx
    obtain ⟨v', hv'⟩ := hx.name hc
    have := hv'.1.chars d (by simp)
    simp [hr d hdr] at this
  · exact not_opens_of_name hc

theorem stands_numeral (h : IsNumeral w) (hr : ∀ c ∈ r.head?, isNumeralChar c = false)
    (hs : ∀ c ∈ r.head?, startsName A c = false) : Stands A w r := by
  obtain ⟨c, cs, rfl, hc⟩ := h.head
  apply stands_of
  · refine ⟨.inr (.inl h), fun _ d hd => ?_, fun he => ?_⟩
    · have hn := hr d hd
      have hp := hs d hd
      simp only [isNumeralChar, Bool.or_eq_false_iff] at hn
      simp only [startsName, Bool.or_eq_false_iff, decide_eq_false_iff_not] at hp
      exact ⟨hp.1, hn.1.1.1.1.2, hp.2⟩
    · cases he
      rcases hc with hc | ⟨hc, -⟩
      · exact absurd hc (by decide)
      · exact absurd hc (by decide)
  · intro d hdr x hx
    -- a longer token with the same beginning would be a numeral, and the next character is none of its characters
    have hn : IsNumeral (c :: (cs ++ d :: x)) := by
      apply IsToken.numeral hx
      rcases hc with hc | ⟨hc, e, ds, rfl, he⟩
      · exact .inl hc
      · exact .inr ⟨hc, e, rfl, he⟩
    have := hn.chars d (by simp)
    simp [hr d hdr] at this
  · apply not_opens_of_head
    rcases hc with hc | ⟨rfl, -⟩
    · intro hm
      simp [ascii_of_isMark (mark_of_opener hm)] at hc
    · decide

theorem stands_string (h : IsString w) (r : List Char) : Stands A w r := by
  obtain ⟨quote, body, hq, hb, hw⟩ := id h
  obtain ⟨hm, hd, hb, -⟩ := quote_plain hq
  subst hw
  apply stands_of
  · refine ⟨.inr (.inr (.inl h)), fun hn => ?_, fun he => ?_⟩
    · obtain ⟨_, _, he, hk | ⟨hk, -⟩⟩ := hn.head
      · cases he
        simp [hd] at hk
      · cases he
        exact absurd (hk ▸ hm) (by decide)
    · obtain ⟨rfl, -⟩ := List.cons.inj he
      exact absurd hq (by decide)
  · intro d _ x hx
    have hs : IsString (quote :: (body ++ [quote] ++ d :: x)) := IsToken.string hx hq
    have he : quote :: body ++ [quote] ++ (d :: x) = quote :: (body ++ [quote] ++ d :: x) ++ [] := by simp
    cases h.rest_unique hs he
  · apply not_opens_of_head
    intro hc
    simp [ascii_of_isMark (mark_of_opener hc)] at hq

/-- The characters with which a longer punctuator or a comment's opener goes on. -/
def goesOn (w : List Char) : List Char :=
  (punctuators ++ openers).filterMap fun p => if w.isPrefixOf p then p[w.length]? else none

/-- May this character come right after a punctuator? -/
def mayPrecede (w : List Char) (c : Char) : Bool :=
  c ∉ goesOn w && !((w = ['?', '.'] || w = ['.']) && isAsciiDigit c)

theorem not_mayPrecede {p x : List Char} (hp : p ∈ punctuators ++ openers) (he : p = w ++ c :: x) :
    mayPrecede w c = false := by
  have : c ∈ goesOn w := by
    refine List.mem_filterMap.2 ⟨p, hp, ?_⟩
    rw [if_pos (List.isPrefixOf_iff_prefix.2 ⟨c :: x, he.symm⟩), he]
    simp
  simp [mayPrecede, this]

/-- No punctuator is a comment's opener or goes beyond one. -/
theorem not_opens_of_punctuator (h : w ∈ punctuators) (hr : ∀ c ∈ r.head?, mayPrecede w c = true) :
    opensComment (w ++ r) = false := by
  have hw : ∀ w ∈ punctuators, ∀ o ∈ openers, ¬ o <+: w := by decide
  by_contra hopen
  obtain ⟨o, ho, hp⟩ := List.any_eq_true.1 (Bool.not_eq_false _ ▸ hopen)
  obtain ⟨y, hy⟩ := List.isPrefixOf_iff_prefix.1 hp
  rcases List.append_eq_append_iff.1 hy with ⟨x, hx, -⟩ | ⟨x, hx, hr'⟩
  · exact hw w h o ho ⟨x, hx.symm⟩
  · cases x with
    | nil => exact hw w h o ho ⟨[], by simp [hx]⟩
    | cons c x =>
      have := hr c (by simp [hr'])
      simp [not_mayPrecede (List.mem_append_right _ ho) hx] at this

theorem stands_punctuator (h : w ∈ punctuators) (hr : ∀ c ∈ r.head?, mayPrecede w c = true) : Stands A w r := by
  obtain ⟨c, cs, rfl, hc, hp⟩ := punctuator_head h
  have hd : ∀ d ∈ r.head?, c :: cs = ['?', '.'] ∨ c :: cs = ['.'] → isAsciiDigit d = false := by
    intro d hdr hw
    have := hr d hdr
    simp only [mayPrecede, Bool.and_eq_true, Bool.not_eq_true', Bool.and_eq_false_iff] at this
    rcases this.2 with h | h
    · rcases hw with hw | hw <;> simp [hw] at h
    · exact h
  apply stands_of
  · refine ⟨.inr (.inr (.inr h)), fun hn => ?_, fun he d hdr => hd d hdr (.inl he)⟩
    obtain ⟨-, -, -, -, hdig, -⟩ := ascii_of_isMark hc
    obtain ⟨_, _, he, hk | ⟨hk, d, ds, rfl, hdd⟩⟩ := hn.head
    · cases he
      simp [hdig] at hk
    · cases he
      have := hp hk d rfl
      simp [digit_plain hdd] at this
  · intro d hdr x hx
    -- a longer token with the same beginning would be a punctuator too, and none goes on with the next character
    have : c :: (cs ++ d :: x) ∈ punctuators := by
      apply IsToken.punctuator hx hc
      intro he e hee
      cases cs with
      | nil =>
        obtain rfl : d = e := by simpa using hee
        exact hd d hdr (.inr (by rw [he]))
      | cons f fs =>
        obtain rfl : f = e := by simpa using hee
        exact (ascii_of_isMark (hp he f rfl)).2.2.2.2.1
    have hno : mayPrecede (c :: cs) d = false := not_mayPrecede (List.mem_append_left _ this) rfl
    simp [hr d hdr] at hno
  · exact not_opens_of_punctuator h hr

/-! ## One reading at most -/

theorem IsToken.head (h : IsToken A w) : ∃ c cs, w = c :: cs ∧ c ≠ ' ' := by
  cases w with
  | nil =>
    rcases h with ⟨v, h⟩ | h | h | h
    · obtain ⟨_, _, he, -⟩ := h.head
      cases he
    · obtain ⟨_, _, he, -⟩ := h.head
      cases he
    · obtain ⟨_, _, -, -, he⟩ := h
      cases he
    · obtain ⟨_, _, he, -⟩ := punctuator_head h
      cases he
  | cons c cs =>
    refine ⟨c, cs, rfl, ?_⟩
    rintro rfl
    rcases h.kind with ⟨hk | hk, -⟩ | ⟨hk | ⟨hk, -⟩, -⟩ | ⟨hk, -⟩ | ⟨hk, -⟩
    · rw [A.ascii_start ' ' (by decide) (by decide)] at hk
      exact absurd hk (by decide)
    · exact absurd hk (by decide)
    · exact absurd hk (by decide)
    · exact absurd hk (by decide)
    · exact absurd hk (by decide)
    · exact absurd hk (by decide)

theorem Stands.unique (h : Stands A w r) (h' : Stands A w' r') (he : w' ++ r' = w ++ r) : w' = w ∧ r' = r := by
  have h1 := h.longest w' r' h'.here he
  have h2 := h'.longest w r h.here he.symm
  exact List.append_inj he (by omega)

theorem Lexes.unique {ts ts' : List String} (h : Lexes A cs ts) (h' : Lexes A cs ts') : ts' = ts := by
  -- On the one reading: a text begins with a blank or with a token, and the token is unique.
  induction h generalizing ts' with
  | done =>
    generalize he : ([] : List Char) = cs at h'
    cases h' with
    | done => rfl
    | blank _ => cases he
    | token hs _ =>
      obtain ⟨c, x, rfl, -⟩ := hs.here.token.head
      cases he
  | @blank cs ts _ ih =>
    generalize he : ' ' :: cs = text at h'
    cases h' with
    | done => cases he
    | blank h =>
      cases he
      exact ih h
    | token hs _ =>
      obtain ⟨c, x, rfl, hc⟩ := hs.here.token.head
      obtain ⟨rfl, -⟩ := List.cons.inj he
      exact absurd rfl hc
  | @token w r ts hs _ ih =>
    generalize he : w ++ r = text at h'
    cases h' with
    | done =>
      obtain ⟨c, x, rfl, -⟩ := hs.here.token.head
      cases he
    | blank _ =>
      obtain ⟨c, x, rfl, hc⟩ := hs.here.token.head
      obtain ⟨rfl, -⟩ := List.cons.inj he
      exact absurd rfl hc
    | token hs' h' =>
      obtain ⟨rfl, rfl⟩ := hs.unique hs' he.symm
      rw [ih h']

/-! ## Pieces -/

/-- The characters of pieces. -/
def chars (ps : Pieces) : List Char := ps.flatMap fun p => p.text.toList

def token? : Piece → Option String
  | .leaf s => some s
  | .mark s => some s
  | _ => none

def tokens (ps : Pieces) : List String := ps.filterMap token?

@[simp] theorem chars_nil : chars [] = [] := rfl
theorem chars_cons (p : Piece) (ps : Pieces) : chars (p :: ps) = p.text.toList ++ chars ps := rfl
@[simp] theorem chars_leaf (s : String) (ps : Pieces) : chars (.leaf s :: ps) = s.toList ++ chars ps := rfl
@[simp] theorem chars_mark (s : String) (ps : Pieces) : chars (.mark s :: ps) = s.toList ++ chars ps := rfl
@[simp] theorem chars_blank (ps : Pieces) : chars (.blank :: ps) = ' ' :: chars ps := rfl
@[simp] theorem chars_append (ps qs : Pieces) : chars (ps ++ qs) = chars ps ++ chars qs := List.flatMap_append

@[simp] theorem tokens_nil : tokens [] = [] := rfl
@[simp] theorem tokens_leaf (s : String) (ps : Pieces) : tokens (.leaf s :: ps) = s :: tokens ps := rfl
@[simp] theorem tokens_mark (s : String) (ps : Pieces) : tokens (.mark s :: ps) = s :: tokens ps := rfl
@[simp] theorem tokens_blank (ps : Pieces) : tokens (.blank :: ps) = tokens ps := rfl
@[simp] theorem tokens_append (ps qs : Pieces) : tokens (ps ++ qs) = tokens ps ++ tokens qs := List.filterMap_append

theorem toList_join (ps : Pieces) : (Piece.join ps).toList = chars ps := by
  have key : ∀ ps : Pieces, ∀ s : String, (ps.foldl (fun acc p => acc ++ p.text) s).toList = s.toList ++ chars ps := by
    intro ps
    induction ps with
    | nil => simp
    | cons p ps ih =>
      intro s
      rw [List.foldl_cons, ih, String.toList_append, List.append_assoc, chars_cons]
  simpa [Piece.join] using key ps ""

/-- Every piece is a blank, or stands in front of what follows it. -/
def Spaced (A : Alphabet) : Pieces → List Char → Prop
  | [], _ => True
  | .blank :: ps, r => Spaced A ps r
  | .leaf s :: ps, r => Stands A s.toList (chars ps ++ r) ∧ Spaced A ps r
  | .mark s :: ps, r => Stands A s.toList (chars ps ++ r) ∧ Spaced A ps r
  | .line _ :: _, _ => False

theorem spaced_append (ps qs : Pieces) (r : List Char) :
    Spaced A (ps ++ qs) r ↔ Spaced A ps (chars qs ++ r) ∧ Spaced A qs r := by
  induction ps with
  | nil => simp [Spaced]
  | cons p ps ih =>
    cases p with
    | leaf s => simp [Spaced, ih, and_assoc]
    | mark s => simp [Spaced, ih, and_assoc]
    | blank => simp [Spaced, ih]
    | line d => simp [Spaced]

theorem Spaced.lexes {ps : Pieces} {ts : List String} (h : Spaced A ps r) (hr : Lexes A r ts) :
    Lexes A (chars ps ++ r) (tokens ps ++ ts) := by
  induction ps with
  | nil => exact hr
  | cons p ps ih =>
    cases p with
    | leaf s => simpa using Lexes.token h.1 (ih h.2)
    | mark s => simpa using Lexes.token h.1 (ih h.2)
    | blank => exact .blank (ih h)
    | line d => exact h.elim

end Graft.Lexical
