import Graft.Source.Token
import Graft.Source.Semicolon
/-!
# Texts woven from leaves

A text is woven from the texts of leaves if these stand in it in order, with nothing between them but blanks, comments,
punctuators and keywords (`Passed`), and pieces of a kind that is dropped as a whole (`Woven`).

A point in a text is given by the text after it. All readers go forward in this sense: what follows a point that they come to
is the end of what followed the one before.
-/

namespace Graft.Source

/-! ## What stands between leaves -/

/-- The words that can stand where they name nothing: the reserved ones, and those that are keywords in their place only. -/
def isKeyword (w : String) : Bool := isReserved w || ["async", "await", "get", "let", "of", "set", "static"].contains w

/-- A piece of text that no leaf keeps. -/
inductive Passed : List Char → List Char → Prop
  | gap (markup : Bool) (cs : List Char) : Passed cs (skipGap markup cs)
  | comment {cs rest : List Char} : dropComment cs = some rest → Passed cs rest
  | punctuator {cs rest : List Char} {p : String} : nextToken cs = (.punct p, rest) → Passed cs rest
  | keyword {cs rest : List Char} {w : String} : nextToken cs = (.word w, rest) → isKeyword w = true → Passed cs rest

/-- A text up to a point is woven from leaves. The pieces between two points that `drops` names are left out. -/
inductive Woven (drops : List Char → List Char → Prop) (cs : List Char) : List String → List Char → Prop
  | start : Woven drops cs [] cs
  | passed {kept : List String} {here rest : List Char} : Woven drops cs kept here → Passed here rest → Woven drops cs kept rest
  | leaf {kept : List String} {text : String} {rest : List Char} :
    Woven drops cs kept (text.toList ++ rest) → Woven drops cs (kept ++ [text]) rest
  | dropped {kept : List String} {here rest : List Char} :
    Woven drops cs kept here → drops here rest → rest <:+ here → Woven drops cs kept rest

/-! ## Forward through a text -/

section Forward
variable {cs rest whole : List Char}

theorem suffix_of_cons {c : Char} (h : c :: cs <:+ whole) : cs <:+ whole := (List.suffix_cons c cs).trans h

/-- A comment that is not closed leads back to where it began. -/
theorem skip_suffix {markup : Bool} {mode : SkipMode} {start : List Char} (h : cs <:+ whole) (hs : start <:+ whole) :
    skip markup mode start cs <:+ whole := by
  fun_induction skip markup mode start cs
  case case5 | case7 | case9 => exact h
  case case18 => exact hs
  all_goals grind [suffix_of_cons]

theorem skipGap_suffix (markup : Bool) (cs : List Char) : skipGap markup cs <:+ cs :=
  skip_suffix (List.suffix_refl cs) List.nil_suffix

theorem afterBlock_suffix (h : dropComment.afterBlock cs = some rest) : rest <:+ cs := by
  fun_induction dropComment.afterBlock cs with
  | case1 cs =>
    cases h
    exact suffix_of_cons (List.suffix_cons _ _)
  | case2 c cs _ ih => exact (ih h).trans (List.suffix_cons _ _)
  | case3 => cases h

theorem dropComment_suffix (h : dropComment cs = some rest) : rest <:+ cs := by
  fun_induction dropComment cs with
  | case1 cs =>
    cases h
    exact (List.dropWhile_suffix _).trans (suffix_of_cons (List.suffix_cons _ _))
  | case2 cs => exact (afterBlock_suffix h).trans (suffix_of_cons (List.suffix_cons _ _))
  | case3 c cs _ _ _ ih => exact (ih h).trans (List.suffix_cons _ _)
  | case4 | case5 => cases h

end Forward

/-! ## The texts of tokens -/

/-- The characters of a token. Only the first one of a template counts, and none of what is no token. -/
def Token.chars : Token → List Char
  | .word text | .name text | .number text | .string text | .punct text => text.toList
  | .privateName text => '#' :: text.toList
  | .template => ['\x60']
  | .ended | .unknown => []

theorem punctuator?_eq_some {cs p : List Char} (h : punctuator? cs = some p) : p <+: cs := by
  unfold punctuator? at h
  split at h
  next d rest =>
    split at h <;> cases h
    · exact ⟨_, rfl⟩
    · exact ⟨_, rfl⟩
  next =>
    have hp := List.find?_some h
    exact List.isPrefixOf_iff_prefix.1 hp

theorem cut_eq {token : String → Token} {n : Nat} {cs rest : List Char} {t : Token} (h : cut token n cs = (t, rest))
    (ht : t ≠ .unknown) : ∃ text, t = token (String.ofList text) ∧ text ++ rest = cs := by
  unfold cut at h
  split at h
  next =>
    cases h
    contradiction
  next =>
    cases h
    exact ⟨cs.take n, rfl, List.take_append_drop n cs⟩

theorem nextToken_chars {cs rest : List Char} {t : Token} (h : nextToken cs = (t, rest)) (ht : t ≠ .unknown) :
    t.chars ++ rest = cs := by
  -- A token is a beginning of the text, whichever branch cuts it off.
  unfold nextToken at h
  split at h
  next =>
    cases h
    rfl
  next c cs =>
    split at h
    next =>
      obtain ⟨text, rfl, heq⟩ := cut_eq h ht
      simpa [Token.chars] using heq
    split at h
    next hc =>
      cases h
      rw [hc]
      rfl
    split at h
    next =>
      obtain ⟨text, rfl, heq⟩ := cut_eq h ht
      simpa [Token.chars] using heq
    split at h
    next hc =>
      dsimp only at h
      split at h
      next =>
        cases h
        contradiction
      next =>
        obtain ⟨text, rfl, rfl⟩ := cut_eq h ht
        simp [Token.chars, hc]
    split at h
    next p hp =>
      cases h
      obtain ⟨rest, hrest⟩ := punctuator?_eq_some hp
      rw [← hrest]
      simp [Token.chars]
    next =>
      obtain ⟨text, rfl, heq⟩ := cut_eq h ht
      simpa [Token.chars] using heq

theorem cut_suffix (token : String → Token) (n : Nat) (cs : List Char) : (cut token n cs).2 <:+ cs := by
  unfold cut
  split <;> exact List.drop_suffix _ cs

theorem nextToken_suffix (cs : List Char) : (nextToken cs).2 <:+ cs := by
  unfold nextToken
  split
  next => exact List.suffix_refl _
  next c cs =>
    split
    next => exact cut_suffix _ _ _
    split
    next => exact List.suffix_cons c cs
    split
    next => exact cut_suffix _ _ _
    split
    next =>
      dsimp only
      split
      next => exact List.suffix_cons c cs
      next => exact (cut_suffix _ _ cs).trans (List.suffix_cons c cs)
    split
    next => exact List.drop_suffix _ _
    next => exact cut_suffix _ _ _

/-- Only the end of a text is no token at all. -/
theorem eq_nil_of_ended {cs rest : List Char} (h : nextToken cs = (.ended, rest)) : cs = [] := by
  have other {token : String → Token} (htoken : ∀ text, token text ≠ .ended) {n : Nat} {cs : List Char} :
      cut token n cs ≠ (.ended, rest) := by
    intro hcut
    obtain ⟨text, ht, -⟩ := cut_eq hcut nofun
    exact htoken _ ht.symm
  unfold nextToken at h
  split at h
  next => rfl
  next =>
    split at h
    next => exact absurd h (other fun _ => by simp)
    split at h
    next => cases h
    split at h
    next => exact absurd h (other fun _ => by simp)
    split at h
    next =>
      dsimp only at h
      split at h
      next => cases h
      next => exact absurd h (other fun _ => by simp)
    split at h
    next => cases h
    next => exact absurd h (other fun _ => by simp)

/-! ## Weaving on -/

theorem Passed.suffix {cs rest : List Char} (h : Passed cs rest) : rest <:+ cs := by
  cases h with
  | gap markup => exact skipGap_suffix markup cs
  | comment h => exact dropComment_suffix h
  | punctuator h | keyword h _ => exact ⟨_, nextToken_chars h nofun⟩

namespace Woven
variable {drops : List Char → List Char → Prop} {cs here rest : List Char} {kept more : List String}

theorem suffix (h : Woven drops cs kept rest) : rest <:+ cs := by
  induction h with
  | start => exact List.suffix_refl cs
  | passed _ hp ih => exact hp.suffix.trans ih
  | leaf _ ih => exact (List.suffix_append _ _).trans ih
  | dropped _ _ hr ih => exact hr.trans ih

theorem trans (h : Woven drops cs kept here) (h' : Woven drops here more rest) : Woven drops cs (kept ++ more) rest := by
  induction h' with
  | start => simpa using h
  | passed _ hp ih => exact ih.passed hp
  | leaf _ ih => simpa using ih.leaf
  | dropped _ hd hr ih => exact ih.dropped hd hr

/-- A leaf that reaches from one point to another. -/
theorem slice (h : Woven drops cs kept here) (hr : rest <:+ here) : Woven drops cs (kept ++ [slice here rest]) rest := by
  obtain ⟨text, rfl⟩ := hr
  have htext : Source.slice (text ++ rest) rest = String.ofList text := by simp [Source.slice]
  rw [htext]
  exact .leaf (by simpa using h)

/-- What a token that names something leaves. -/
theorem token (h : Woven drops cs kept here) {t : Token} (ht : nextToken here = (t, rest)) (hn : t ≠ .unknown) :
    Woven drops cs (kept ++ [String.ofList t.chars]) rest :=
  .leaf (by simpa [nextToken_chars ht hn] using h)

/-- The place where a semicolon is inserted is behind comments only. -/
theorem insertion {bare : Bool} (h : Woven drops cs kept here) (hi : insertion? bare here = some rest) :
    Woven drops cs kept rest := by
  have within (bound : List Char) : ∀ here, Woven drops cs kept here → insertionWithin? bare bound here = some rest →
      Woven drops cs kept rest := by
    induction bound with
    | nil =>
      intro here h hi
      cases hi
      exact h
    | cons c bound ih =>
      intro here h hi
      unfold insertionWithin? at hi
      split at hi
      next =>
        cases hi
        exact h
      next =>
        split at hi
        next after hc => exact ih after (h.passed (.comment hc)) hi
        next => cases hi
  exact within here here h hi

/-- Where nothing is dropped that contains a character which the text does not have, nothing is dropped. -/
theorem undropped (h : Woven drops cs kept rest) {c : Char} (hd : ∀ here rest, drops here rest → c ∈ here) (hc : c ∉ cs) :
    Woven (fun _ _ => False) cs kept rest := by
  induction h with
  | start => exact .start
  | passed _ hp ih => exact ih.passed hp
  | leaf _ ih => exact ih.leaf
  | dropped h hd' _ _ => exact absurd (h.suffix.subset (hd _ _ hd')) hc

end Woven
end Graft.Source
