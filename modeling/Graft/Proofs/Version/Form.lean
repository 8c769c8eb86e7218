import Graft.Version.Header
import Graft.Proofs.Text.Runs
/-!
# The form of a version text

A version text goes as far as it can. `GoesOn` says with which characters it does, and of two version texts that begin at one
place the shorter one always does (`goesOn_of_longer`), so that one of them is read (`versionText?_spec`). Hence what is read at
the front of a text is read there when the text is longer, unless it goes on (`versionText?_append`).
-/

namespace Graft.Version

open Unicode (isDecimalDigit)
open Text (span_run head_dropWhile)

/-! ## The form of a version text -/

def Digits (cs : List Char) : Prop := cs ≠ [] ∧ ∀ c ∈ cs, isDecimalDigit c = true

/-- A sign and at least one character, or nothing. -/
inductive Suffix (sign : Char) : List Char → Prop
  | none : Suffix sign []
  | some {part : List Char} : part ≠ [] → (∀ c ∈ part, isSuffixPart c = true) → Suffix sign (sign :: part)

/-- Three numbers, and perhaps a pre-release and build data. -/
inductive VersionForm : List Char → Prop
  | mk {major minor patch pre build : List Char} : Digits major → Digits minor → Digits patch →
    Suffix '-' pre → Suffix '+' build → VersionForm (major ++ '.' :: minor ++ '.' :: patch ++ pre ++ build)

/-- What follows a version text makes a longer one of it. -/
inductive GoesOn (text : List Char) : List Char → Prop
  | digit {c : Char} (rest : List Char) : '-' ∉ text → '+' ∉ text → isDecimalDigit c = true → GoesOn text (c :: rest)
  | part {c : Char} (rest : List Char) : '-' ∈ text ∨ '+' ∈ text → isSuffixPart c = true → GoesOn text (c :: rest)
  | sign {c d : Char} (rest : List Char) : c = '-' ∨ c = '+' → '+' ∉ text → isSuffixPart d = true →
    GoesOn text (c :: d :: rest)

variable {cs more text rest part pre build : List Char} {c sign : Char}

/-- Whether a text goes on is decided by two characters. -/
theorem GoesOn.at_cut (h : GoesOn text (rest ++ more)) (hrest : ¬ GoesOn text rest) :
    more ≠ [] ∧ (rest = [] ∨ rest = ['-'] ∨ rest = ['+']) := by
  have hmore : more ≠ [] := by
    rintro rfl
    rw [List.append_nil] at h
    exact hrest h
  refine ⟨hmore, ?_⟩
  rcases rest with - | ⟨c, rest⟩
  · exact .inl rfl
  · rw [List.cons_append] at h
    generalize hall : rest ++ more = all at h
    cases h with
    | digit _ hminus hplus hc => exact absurd (.digit rest hminus hplus hc) hrest
    | part _ hsign hc => exact absurd (.part rest hsign hc) hrest
    | sign _ hc hplus hd =>
      cases rest with
      | nil => rcases hc with rfl | rfl <;> simp
      | cons e rest =>
        obtain ⟨rfl, -⟩ := List.cons.inj hall
        exact absurd (.sign rest hc hplus hd) hrest

theorem not_goesOn_append (h : ¬ GoesOn text rest) (hrest : '\n' ∈ rest) : ¬ GoesOn text (rest ++ more) := by
  intro hlong
  rcases (hlong.at_cut h).2 with rfl | rfl | rfl <;> simp at hrest

/-! ### Characters -/

theorem ne_of_digit {d : Char} (hc : isDecimalDigit c = true) (hd : isDecimalDigit d = false) : c ≠ d := by
  rintro rfl
  rw [hc] at hd
  cases hd

theorem ne_of_suffixPart {d : Char} (hc : isSuffixPart c = true) (hd : isSuffixPart d = false) : c ≠ d := by
  rintro rfl
  rw [hc] at hd
  cases hd

theorem Digits.not_mem {d : Char} (h : Digits cs) (hd : isDecimalDigit d = false) : d ∉ cs := fun hmem =>
  ne_of_digit (h.2 d hmem) hd rfl

theorem Suffix.not_mem {d : Char} (h : Suffix sign cs) (hsign : d ≠ sign) (hd : isSuffixPart d = false) : d ∉ cs := by
  cases h with
  | none => simp
  | some hne hpart =>
    rw [List.mem_cons, not_or]
    exact ⟨hsign, fun hmem => ne_of_suffixPart (hpart d hmem) hd rfl⟩

theorem Suffix.no_plus (h : Suffix '-' pre) : '+' ∉ pre := h.not_mem (by simp) (by decide)

theorem VersionForm.ne_nil (h : VersionForm text) : text ≠ [] := by
  cases h
  simp

theorem VersionForm.no_newline (h : VersionForm text) : '\n' ∉ text := by
  obtain ⟨hmajor, hminor, hpatch, hpre, hbuild⟩ := h
  have hdigit : isDecimalDigit '\n' = false := by decide +kernel
  have hsuffix : isSuffixPart '\n' = false := by decide
  have hpre := hpre.not_mem (by simp) hsuffix
  have hbuild := hbuild.not_mem (by simp) hsuffix
  simp [hmajor.not_mem hdigit, hminor.not_mem hdigit, hpatch.not_mem hdigit, hpre, hbuild]

/-! ## Reading one version text -/

theorem after?_eq_some : after? sign cs = some rest ↔ cs = sign :: rest := by
  cases cs with
  | nil => simp [after?]
  | cons c cs =>
    rw [after?]
    split
    next h => simp [h]
    next h => simp [h]

theorem digits?_eq_some {run : List Char} :
    digits? cs = some (run, rest) ↔ cs = run ++ rest ∧ Digits run ∧ ∀ c ∈ rest.head?, isDecimalDigit c = false := by
  rw [digits?]
  constructor
  · intro h
    split at h
    next => cases h
    next hne =>
      obtain ⟨rfl, rfl⟩ := Prod.mk.inj (Option.some.inj h)
      refine ⟨List.takeWhile_append_dropWhile.symm, ⟨by simpa using hne, ?_⟩, head_dropWhile _ _⟩
      exact fun c hc => List.mem_takeWhile_imp hc
  · rintro ⟨rfl, ⟨hne, hrun⟩, hrest⟩
    obtain ⟨htake, hdrop⟩ := span_run hrun hrest
    rw [htake, hdrop, if_neg (by simpa using hne)]

theorem suffix_spec (h : suffix sign cs = (part, rest)) : cs = part ++ rest ∧ Suffix sign part ∧
    (part ≠ [] → ∀ c ∈ rest.head?, isSuffixPart c = false) ∧
    (part = [] → ∀ d more, rest = sign :: d :: more → isSuffixPart d = false) := by
  rw [suffix] at h
  cases hafter : after? sign cs with
  | none =>
    rw [hafter] at h
    cases h
    refine ⟨rfl, .none, fun hne => absurd rfl hne, fun _ d more heq => ?_⟩
    rw [after?_eq_some.2 heq] at hafter
    cases hafter
  | some behind =>
    obtain rfl := after?_eq_some.1 hafter
    simp only [hafter] at h
    by_cases hempty : (behind.takeWhile isSuffixPart).isEmpty = true
    · rw [if_pos hempty] at h
      cases h
      refine ⟨rfl, .none, fun hne => absurd rfl hne, fun _ d more heq => ?_⟩
      obtain rfl := (List.cons.inj heq).2
      by_contra hd
      simp [List.takeWhile_cons_of_pos (p := isSuffixPart) (by simpa using hd)] at hempty
    · rw [if_neg hempty] at h
      cases h
      refine ⟨by rw [List.cons_append, List.takeWhile_append_dropWhile], ?_, fun _ => head_dropWhile _ _, fun heq => ?_⟩
      · exact .some (by simpa using hempty) fun c hc => List.mem_takeWhile_imp hc
      · cases heq

/-- A text without the `v` that may stand before a version. -/
def unmarked (cs : List Char) : List Char := (after? 'v' cs).getD cs

theorem unmarked_append (h : cs ≠ []) (more : List Char) : unmarked (cs ++ more) = unmarked cs ++ more := by
  obtain ⟨c, rest, rfl⟩ := List.exists_cons_of_ne_nil h
  rw [unmarked, unmarked, List.cons_append, after?, after?]
  split <;> rfl

theorem eq_unmarked (cs : List Char) : cs = unmarked cs ∨ cs = 'v' :: unmarked cs := by
  rw [unmarked]
  cases h : after? 'v' cs with
  | none => exact .inl rfl
  | some rest => exact .inr (after?_eq_some.1 h)

/-- Which suffixes a version text has shows in its signs. -/
structure Signs (text pre build : List Char) : Prop where
  plus_iff : '+' ∈ text ↔ build ≠ []
  sign_iff : '-' ∈ text ∨ '+' ∈ text ↔ pre ≠ [] ∨ build ≠ []

theorem signs_of_form {major minor patch : List Char} (hmajor : Digits major) (hminor : Digits minor) (hpatch : Digits patch)
    (hpre : Suffix '-' pre) (hbuild : Suffix '+' build) :
    Signs (major ++ '.' :: minor ++ '.' :: patch ++ pre ++ build) pre build := by
  have hplus : isDecimalDigit '+' = false := by decide +kernel
  have hminus : isDecimalDigit '-' = false := by decide +kernel
  constructor <;> simp only [List.mem_append, List.mem_cons, hmajor.not_mem hplus, hminor.not_mem hplus, hpatch.not_mem hplus,
    hpre.no_plus, hmajor.not_mem hminus, hminor.not_mem hminus, hpatch.not_mem hminus]
  · cases hbuild <;> simp
  · cases hpre <;> cases hbuild <;> simp

theorem Signs.unsigned (h : Signs text [] []) : '-' ∉ text ∧ '+' ∉ text := not_or.1 (h.sign_iff.not.2 (by simp))

/-- What is read is a version text that goes as far as it can. -/
theorem versionText?_spec (h : versionText? cs = some (text, rest)) :
    VersionForm text ∧ unmarked cs = text ++ rest ∧ ¬ GoesOn text rest := by
  simp only [versionText?, Option.bind_eq_bind, Option.bind_eq_some_iff, Prod.exists] at h
  obtain ⟨major, r₁, hread, r₂, hdot, minor, r₃, hread', r₄, hdot', patch, r₅, hread'', h⟩ := h
  obtain ⟨hcs, hmajor, -⟩ := digits?_eq_some.1 hread
  obtain ⟨hr₂, hminor, -⟩ := digits?_eq_some.1 hread'
  obtain ⟨hr₄, hpatch, hpatchEnd⟩ := digits?_eq_some.1 hread''
  rw [after?_eq_some.1 hdot, hr₂, after?_eq_some.1 hdot', hr₄] at hcs
  cases hsuffix : suffix '-' r₅ with | mk pre r₆ =>
  cases hsuffix' : suffix '+' r₆ with | mk build r₇ =>
  obtain ⟨rfl, hpre, hpreEnd, hpreNone⟩ := suffix_spec hsuffix
  obtain ⟨rfl, hbuild, hbuildEnd, hbuildNone⟩ := suffix_spec hsuffix'
  simp only [hsuffix, hsuffix', Option.pure_def, Option.some.injEq, Prod.mk.injEq] at h
  obtain ⟨rfl, rfl⟩ := h
  refine ⟨.mk hmajor hminor hpatch hpre hbuild, by rw [unmarked, hcs]; simp, fun hgoes => ?_⟩
  have hsigns := signs_of_form hmajor hminor hpatch hpre hbuild
  cases hgoes with
  | digit _ hnoMinus hnoPlus hc =>
    obtain ⟨rfl, rfl⟩ := by simpa only [not_or, not_not] using hsigns.sign_iff.not.1 (not_or.2 ⟨hnoMinus, hnoPlus⟩)
    exact absurd (hpatchEnd _ rfl) (by simp [hc])
  | part _ hsigned hc =>
    by_cases hb : build = []
    · subst hb
      have hp : pre ≠ [] := by simpa using hsigns.sign_iff.1 hsigned
      exact absurd (hpreEnd hp _ rfl) (by simp [hc])
    · exact absurd (hbuildEnd hb _ rfl) (by simp [hc])
  | sign _ hc hnoPlus hd =>
    obtain rfl : build = [] := by simpa using hsigns.plus_iff.not.1 hnoPlus
    rcases hc with rfl | rfl
    · by_cases hp : pre = []
      · exact absurd (hpreNone hp _ _ rfl) (by simp [hd])
      · exact absurd (hpreEnd hp '-' rfl) (by decide)
    · exact absurd (hbuildNone rfl _ _ rfl) (by simp [hd])

theorem digits?_isSome {run : List Char} (h : Digits run) (rest : List Char) : ∃ found, digits? (run ++ rest) = some found := by
  refine ⟨_, digits?_eq_some.2 ⟨List.takeWhile_append_dropWhile.symm, ⟨?_, fun c hc => List.mem_takeWhile_imp hc⟩,
    head_dropWhile _ _⟩⟩
  rw [List.takeWhile_append_of_pos h.2]
  exact List.append_ne_nil_of_left_ne_nil h.1 _

/-- Whatever follows a version text, one is read there. -/
theorem versionText?_isSome (h : VersionForm text) (hcs : unmarked cs = text ++ rest) : (versionText? cs).isSome = true := by
  obtain @⟨major, minor, patch, pre, build, hmajor, hminor, hpatch, -, -⟩ := h
  have hdot : isDecimalDigit '.' = false := by decide +kernel
  have hread : digits? ((after? 'v' cs).getD cs) = some (major, '.' :: (minor ++ '.' :: (patch ++ (pre ++ (build ++ rest))))) :=
    digits?_eq_some.2 ⟨hcs.trans (by simp), hmajor, by simp [hdot]⟩
  have hread' : digits? (minor ++ '.' :: (patch ++ (pre ++ (build ++ rest)))) =
      some (minor, '.' :: (patch ++ (pre ++ (build ++ rest)))) :=
    digits?_eq_some.2 ⟨rfl, hminor, by simp [hdot]⟩
  obtain ⟨found, hread''⟩ := digits?_isSome hpatch (pre ++ (build ++ rest))
  simp [versionText?, hread, after?_eq_some.2 rfl, hread', hread'']

/-- Of two ways to split a text, the one that takes a run to its end takes no less. -/
theorem run_split {p : Char → Bool} {a b a' b' : List Char} (ha : ∀ c ∈ a, p c = true)
    (hb : ∀ c ∈ b'.head?, p c = false) (h : a ++ b = a' ++ b') : ∃ w, a' = a ++ w ∧ b = w ++ b' := by
  rcases List.append_eq_append_iff.1 h with ⟨w, ha', hb'⟩ | ⟨w, ha', hb'⟩
  · exact ⟨w, ha', hb'⟩
  · cases w with
    | nil => exact ⟨[], by simpa using ha'.symm, by simpa using hb'.symm⟩
    | cons c w =>
      have hc := ha c (by simp [ha'])
      rw [hb c (by simp [hb'])] at hc
      cases hc

theorem digits_before_dot {run run' : List Char} (hrun : Digits run) (hrun' : Digits run')
    (h : run ++ '.' :: rest = run' ++ '.' :: more) : run = run' ∧ rest = more := by
  have hhead (rest : List Char) : ∀ c ∈ ('.' :: rest).head?, isDecimalDigit c = false := by
    rintro c ⟨⟩
    decide +kernel
  have hread := digits?_eq_some.2 ⟨h, hrun', hhead more⟩
  rw [digits?_eq_some.2 ⟨rfl, hrun, hhead rest⟩] at hread
  simpa using hread

/-- The build data are longer, or the longer text alone has any. -/
theorem Signs.goesOn_build {build' : List Char} (h : Signs text pre build) (hbuild : Suffix '+' build)
    (hbuild' : Suffix '+' build') (heq : build' = build ++ part) (hne : part ≠ []) (rest : List Char) : GoesOn text (part ++ rest) := by
  cases hbuild with
  | none =>
    obtain rfl : build' = part := heq
    obtain - | ⟨hsome, hparts⟩ := hbuild'
    · exact absurd rfl hne
    · obtain ⟨d, more, rfl⟩ := List.exists_cons_of_ne_nil hsome
      exact .sign _ (.inr rfl) (h.plus_iff.not.2 (by simp)) (hparts d List.mem_cons_self)
  | some _ _ =>
    obtain ⟨d, more, rfl⟩ := List.exists_cons_of_ne_nil hne
    obtain - | ⟨_, hparts⟩ := hbuild'
    · cases heq
    · obtain ⟨-, rfl⟩ := List.cons.inj heq
      exact .part _ (h.sign_iff.2 (.inr (by simp))) (hparts d (by simp))

/-- The pre-release is longer, or the longer text alone has one. -/
theorem Signs.goesOn_pre (h : Signs text pre []) (hpre : Suffix '-' pre) (hpre' : Suffix '-' (pre ++ part)) (hne : part ≠ [])
    (rest : List Char) : GoesOn text (part ++ rest) := by
  obtain ⟨c, more, rfl⟩ := List.exists_cons_of_ne_nil hne
  cases hpre with
  | none =>
    obtain - | ⟨hsome, hparts⟩ := hpre'
    obtain ⟨d, more, rfl⟩ := List.exists_cons_of_ne_nil hsome
    exact .sign _ (.inl rfl) h.unsigned.2 (hparts d List.mem_cons_self)
  | some _ _ =>
    obtain - | ⟨_, hparts⟩ := hpre'
    exact .part _ (h.sign_iff.2 (.inl (by simp))) (hparts c (by simp))

/-- Where two version texts begin, the shorter one goes on. -/
theorem goesOn_of_longer {longer : List Char} (h : VersionForm text) (h' : VersionForm longer) (heq : longer = text ++ part)
    (hne : part ≠ []) (rest : List Char) : GoesOn text (part ++ rest) := by
  obtain @⟨major, minor, patch, pre, build, hmajor, hminor, hpatch, hpre, hbuild⟩ := h
  obtain @⟨major', minor', patch', pre', build', hmajor', hminor', hpatch', hpre', hbuild'⟩ := h'
  have hsigns := signs_of_form hmajor hminor hpatch hpre hbuild
  simp only [List.append_assoc, List.cons_append] at heq
  obtain ⟨-, hminors⟩ := digits_before_dot hmajor' hmajor heq
  obtain ⟨-, hpatches⟩ := digits_before_dot hminor' hminor hminors
  generalize major ++ '.' :: minor ++ '.' :: patch ++ pre ++ build = text at hsigns ⊢
  have hpre_head : ∀ c ∈ (pre' ++ build').head?, isDecimalDigit c = false := by
    cases hpre' <;> cases hbuild' <;> simp <;> decide +kernel
  obtain ⟨w, hlonger, htail⟩ := run_split hpatch.2 hpre_head hpatches.symm
  rcases w with - | ⟨c, w⟩
  · have hpre_plus (c : Char) (hc : c ∈ pre) : decide (c ≠ '+') = true := by
      rw [decide_eq_true_iff]
      rintro rfl
      exact hpre.no_plus hc
    have hbuild_head : ∀ c ∈ build'.head?, decide (c ≠ '+') = false := by
      cases hbuild' <;> simp
    obtain ⟨w, rfl, hbuilds⟩ := run_split hpre_plus hbuild_head htail
    by_cases hw : w = []
    · subst hw
      exact hsigns.goesOn_build hbuild hbuild' hbuilds.symm hne rest
    · have hplus : '+' ∉ w := fun hmem => hpre'.no_plus (List.mem_append_right pre hmem)
      obtain - | ⟨_, _⟩ := hbuild
      · obtain rfl : part = w ++ build' := hbuilds
        rw [List.append_assoc]
        exact hsigns.goesOn_pre hpre hpre' hw _
      · obtain ⟨c, w, rfl⟩ := List.exists_cons_of_ne_nil hw
        exact absurd ((List.cons.inj hbuilds).1 ▸ List.mem_cons_self) hplus
  · -- The last number is longer.
    have hc : isDecimalDigit c = true := hpatch'.2 c (by simp [hlonger])
    obtain - | ⟨_, _⟩ := hpre
    · obtain - | ⟨_, _⟩ := hbuild
      · obtain rfl : part = c :: (w ++ (pre' ++ build')) := htail
        exact .digit _ hsigns.unsigned.1 hsigns.unsigned.2 hc
      · exact absurd (List.cons.inj htail).1.symm (ne_of_digit hc (by decide +kernel))
    · exact absurd (List.cons.inj htail).1.symm (ne_of_digit hc (by decide +kernel))

/-! ## In a longer text -/

/-- What is found in a text, and what is found at the same place when more follows. -/
structure Grows (more : List Char) (found longer : List Char × List Char) : Prop where
  begins : found.1 <+: longer.1
  same : longer.1 ++ longer.2 = found.1 ++ (found.2 ++ more)
  exact_iff : longer.1 = found.1 ↔ ¬ GoesOn found.1 (found.2 ++ more)

variable {found : List Char × List Char}

/-- Where the text goes on after a line break, all stays as it is. -/
theorem Grows.eq_of_newline {longer : List Char × List Char} (h : Grows more found longer) (hstop : ¬ GoesOn found.1 found.2)
    (hline : '\n' ∈ found.2) : longer = (found.1, found.2 ++ more) := by
  have htext := h.exact_iff.2 (not_goesOn_append hstop hline)
  have hsame := h.same
  rw [htext] at hsame
  exact Prod.ext htext (List.append_cancel_left hsame)

theorem versionText?_append (h : versionText? cs = some found) (more : List Char) :
    ∃ longer, versionText? (cs ++ more) = some longer ∧ Grows more found longer := by
  obtain ⟨text, rest⟩ := found
  obtain ⟨hform, hcs, -⟩ := versionText?_spec h
  have hne : cs ≠ [] := by
    rintro rfl
    cases h
  have hlong : unmarked (cs ++ more) = text ++ (rest ++ more) := by rw [unmarked_append hne, hcs, List.append_assoc]
  obtain ⟨⟨longer, rest'⟩, hread⟩ := Option.isSome_iff_exists.1 (versionText?_isSome hform hlong)
  obtain ⟨hform', hcs', hstop⟩ := versionText?_spec hread
  have hsame : longer ++ rest' = text ++ (rest ++ more) := hcs'.symm.trans hlong
  refine ⟨_, hread, ?_⟩
  rcases List.append_eq_append_iff.1 hsame with ⟨part, rfl, rfl⟩ | ⟨part, rfl, hrest⟩
  · -- What is read there cannot be shorter: it would go on.
    obtain rfl : part = [] := by
      by_contra hpart
      exact hstop (goesOn_of_longer hform' hform rfl hpart _)
    exact ⟨by simp, by simp, by simpa using hstop⟩
  · refine ⟨List.prefix_append _ _, hsame, fun heq => ?_, fun hgoes => ?_⟩
    · obtain rfl : part = [] := by simpa using heq
      simp only [List.append_nil, List.nil_append] at hrest hstop
      rwa [hrest]
    · by_contra hpart
      rw [hrest] at hgoes
      exact hgoes (goesOn_of_longer hform hform' rfl (by simpa using hpart) _)

/-- No version text begins anew where a line break already stands. -/
theorem versionText?_none_append (h : versionText? cs = none) (hline : '\n' ∈ cs) (more : List Char) :
    versionText? (cs ++ more) = none := by
  by_contra hread
  obtain ⟨⟨text, rest⟩, hread⟩ := Option.ne_none_iff_exists'.1 hread
  obtain ⟨hform, hcs, -⟩ := versionText?_spec hread
  rw [unmarked_append (List.ne_nil_of_mem hline)] at hcs
  rcases List.append_eq_append_iff.1 hcs with ⟨part, rfl, -⟩ | ⟨part, hpart, -⟩
  · refine hform.no_newline (List.mem_append_left _ ?_)
    rcases eq_unmarked cs with hmark | hmark <;> rw [hmark] at hline
    · exact hline
    · exact (List.mem_cons.1 hline).resolve_left (by simp)
  · have hsome := versionText?_isSome hform hpart
    rw [h] at hsome
    cases hsome

/-- How many dots a text has before its last character. A version text has two of them. -/
def innerDots (cs : List Char) : Nat := cs.dropLast.count '.'

theorem innerDots_prefix {long : List Char} (h : cs <+: long) : innerDots cs ≤ innerDots long := by
  obtain ⟨part, rfl⟩ := h
  by_cases hpart : part = []
  · rw [hpart, List.append_nil]
  · rw [innerDots, innerDots, List.dropLast_append_of_ne_nil hpart]
    exact ((List.dropLast_sublist cs).trans (List.sublist_append_left cs _)).count_le '.'

theorem innerDots_cons (c : Char) (cs : List Char) : innerDots cs ≤ innerDots (c :: cs) := by
  by_cases hcs : cs = []
  · subst hcs
    exact Nat.zero_le _
  · rw [innerDots, innerDots, List.dropLast_cons_of_ne_nil hcs]
    exact (List.sublist_cons_self c _).count_le '.'

theorem innerDots_unmarked (cs : List Char) : innerDots (unmarked cs) = innerDots cs := by
  rcases eq_unmarked cs with h | h
  · rw [← h]
  · generalize unmarked cs = bare at h ⊢
    subst h
    by_cases hbare : bare = []
    · rw [hbare]
      rfl
    · rw [innerDots, innerDots, List.dropLast_cons_of_ne_nil hbare, List.count_cons_of_ne (by simp)]

theorem innerDots_of_read (h : versionText? cs = some found) : 2 ≤ innerDots cs := by
  obtain ⟨text, rest⟩ := found
  obtain ⟨hform, hcs, -⟩ := versionText?_spec h
  obtain @⟨major, minor, patch, pre, build, -, -, ⟨hpatch, -⟩, -, -⟩ := hform
  have htail : patch ++ pre ++ build ++ rest ≠ [] := by simp [hpatch]
  have hcs : unmarked cs = major ++ '.' :: (minor ++ '.' :: (patch ++ pre ++ build ++ rest)) := by simp [hcs]
  rw [← innerDots_unmarked, innerDots, hcs, List.dropLast_append_of_ne_nil (by simp), List.dropLast_cons_of_ne_nil (by simp),
    List.dropLast_append_of_ne_nil (by simp), List.dropLast_cons_of_ne_nil htail]
  simp [List.count_append]
  omega

/-- A text that only the beginning of a version text fits in has no room for another one. -/
theorem innerDots_of_begun (h : versionText? cs = none) (hlong : versionText? (cs ++ more) = some found) :
    innerDots cs ≤ 1 := by
  by_cases hne : cs = []
  · subst hne
    exact Nat.zero_le _
  obtain ⟨text, rest⟩ := found
  obtain ⟨hform, hcs, -⟩ := versionText?_spec hlong
  obtain @⟨major, minor, patch, pre, build, hmajor, hminor, ⟨hpatch, hdigits⟩, -, -⟩ := hform
  obtain ⟨d, patch, rfl⟩ := List.exists_cons_of_ne_nil hpatch
  have hdot : isDecimalDigit '.' = false := by decide +kernel
  have hcs : unmarked cs ++ more = major ++ '.' :: minor ++ ['.'] ++ d :: (patch ++ pre ++ build ++ rest) := by
    rw [← unmarked_append hne, hcs]
    simp
  have hnumbers : innerDots (major ++ '.' :: minor ++ ['.']) = 1 := by
    rw [innerDots, List.dropLast_concat, List.count_append, List.count_cons_self,
      List.count_eq_zero_of_not_mem (hmajor.not_mem hdot), List.count_eq_zero_of_not_mem (hminor.not_mem hdot)]
  rw [← innerDots_unmarked, ← hnumbers]
  rcases List.append_eq_append_iff.1 hcs with ⟨part, hpart, -⟩ | ⟨part, hpart, hrest⟩
  · exact innerDots_prefix ⟨part, hpart.symm⟩
  · -- With a digit of the last number there is a version text already.
    rcases part with - | ⟨e, part⟩
    · rw [hpart, List.append_nil]
    · obtain ⟨rfl, -⟩ := List.cons.inj hrest
      have hshort : VersionForm (major ++ '.' :: minor ++ '.' :: [d] ++ [] ++ []) :=
        .mk hmajor hminor ⟨by simp, by simpa using hdigits d List.mem_cons_self⟩ .none .none
      have hread : unmarked cs = major ++ '.' :: minor ++ '.' :: [d] ++ [] ++ [] ++ part := hpart.trans (by simp)
      have hsome := versionText?_isSome hshort hread
      rw [h] at hsome
      cases hsome

end Graft.Version
