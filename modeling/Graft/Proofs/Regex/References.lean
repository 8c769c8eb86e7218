import Graft.Proofs.Manifest.Valid
import Graft.Proofs.Number.Decimal
import Graft.Proofs.Text.Runs
import Graft.Regex.Template
/-!
# References of a template

`Reads cs pieces` says how a template is read from the left, and tells a reference in braces from one without. A template has
one reading, and its parts are those of the reading (`template_reads`). The scan for references that run on goes through the
same text with rules of its own: it gets out of step with a reading only inside of braces, where it may stop at what is no
reference, and is in step again after them (`Reads.none_sound`, `Reads.ambiguous_eq`).
-/

namespace Graft.Regex

open Unicode (isAsciiDigit)
open Text (span_run head_dropWhile)

/-- What a template is made of. -/
inductive TemplatePiece where
  | literal (c : Char)
  | braced (name : List Char)
  | bare (name : List Char)
  deriving DecidableEq

/-- What a piece stands for; for that braces make no difference. -/
def TemplatePiece.part : TemplatePiece → TemplatePart
  | .literal c => .literal c
  | .braced name => .group name
  | .bare name => .group name

/-- A dollar before this text begins two dollars or a reference. -/
inductive Refers : List Char → Prop
  | dollar (rest : List Char) : Refers ('$' :: rest)
  | braced (name rest : List Char) : Refers ('\x7b' :: (name ++ '\x7d' :: rest))
  | bare {c : Char} (rest : List Char) : isReferenceLetter c = true → Refers (c :: rest)

/-- What a text begins with, and the text after it: two dollars are a dollar, a name in braces goes on to the first closing
brace, a name without braces is as long as it can be, and every other character is itself. -/
inductive Begins : List Char → TemplatePiece → List Char → Prop
  | dollar (rest : List Char) : Begins ('$' :: '$' :: rest) (.literal '$') rest
  | braced {name : List Char} (rest : List Char) : '\x7d' ∉ name →
    Begins ('$' :: '\x7b' :: (name ++ '\x7d' :: rest)) (.braced name) rest
  | bare {name rest : List Char} : name ≠ [] → (∀ c ∈ name, isReferenceLetter c = true) →
    (∀ c ∈ rest.head?, isReferenceLetter c = false) → Begins ('$' :: (name ++ rest)) (.bare name) rest
  | sign {rest : List Char} : ¬ Refers rest → Begins ('$' :: rest) (.literal '$') rest
  | other {c : Char} (rest : List Char) : c ≠ '$' → Begins (c :: rest) (.literal c) rest

/-- How a template is read, piece after piece. -/
inductive Reads : List Char → List TemplatePiece → Prop
  | done : Reads [] []
  | next {cs rest : List Char} {piece : TemplatePiece} {ps : List TemplatePiece} :
    Begins cs piece rest → Reads rest ps → Reads cs (piece :: ps)

/-- A name that begins with a digit and is no number. -/
def runsOn (name : List Char) : Bool := name.head?.any isAsciiDigit && !name.all isAsciiDigit

/-- The name of a reference that runs on. -/
def TemplatePiece.ambiguous? : TemplatePiece → Option (List Char)
  | .bare name => if runsOn name then some name else none
  | _ => none

variable {cs name rest : List Char} {ps : List TemplatePiece} {c : Char}

/-! ## Letters -/

theorem isReferenceLetter_of_digit (h : isAsciiDigit c = true) : isReferenceLetter c = true := by
  simp [isReferenceLetter, h]

theorem isNameStart_of_not_digit (h : isAsciiDigit c = false) : isNameStart c = isReferenceLetter c := by
  simp [isNameStart, isReferenceLetter, h]

theorem letter_ne_dollar (h : isReferenceLetter c = true) : c ≠ '$' := by
  rintro rfl
  cases h

theorem letter_ne_brace (h : isReferenceLetter c = true) : c ≠ '\x7b' := by
  rintro rfl
  cases h

/-! ## Readings -/

theorem reference?_of_ne (h : ∀ r, cs ≠ '\x7b' :: r) : reference? cs =
    if (cs.takeWhile isReferenceLetter).isEmpty then none
    else some (cs.takeWhile isReferenceLetter, cs.dropWhile isReferenceLetter) := by
  unfold reference?
  split
  next rest => exact absurd rfl (h rest)
  next => rfl

theorem reference?_brace (rest : List Char) : reference? ('\x7b' :: rest) =
    match rest.dropWhile (· ≠ '\x7d') with
    | _ :: after => some (rest.takeWhile (· ≠ '\x7d'), after)
    | [] => none := rfl

theorem reference?_braced (hname : '\x7d' ∉ name) : reference? ('\x7b' :: (name ++ '\x7d' :: rest)) = some (name, rest) := by
  have hrun : ∀ c ∈ name, decide (c ≠ '\x7d') = true := fun c hc => decide_eq_true fun heq => hname (heq ▸ hc)
  have hend : ∀ c ∈ ('\x7d' :: rest).head?, decide (c ≠ '\x7d') = false := by
    rintro c ⟨⟩
    rfl
  have hspan := span_run hrun hend
  rw [reference?_brace, hspan.1, hspan.2]

theorem reference?_bare (hne : name ≠ []) (hname : ∀ c ∈ name, isReferenceLetter c = true)
    (hrest : ∀ c ∈ rest.head?, isReferenceLetter c = false) : reference? (name ++ rest) = some (name, rest) := by
  obtain ⟨hrun, hafter⟩ := span_run hname hrest
  obtain ⟨c, more, rfl⟩ := List.exists_cons_of_ne_nil hne
  have hbrace (r : List Char) : c :: more ++ rest ≠ '\x7b' :: r := fun h =>
    letter_ne_brace (hname c List.mem_cons_self) (List.cons.inj h).1
  rw [reference?_of_ne hbrace, hrun, hafter]
  rfl

theorem reference?_none (h : ¬ Refers cs) : reference? cs = none := by
  by_cases hbrace : ∃ r, cs = '\x7b' :: r
  · obtain ⟨r, rfl⟩ := hbrace
    rw [reference?_brace]
    split
    next d after hafter =>
      obtain rfl : d = '\x7d' := by simpa using head_dropWhile (· ≠ '\x7d') r d (by rw [hafter]; rfl)
      have hrefers := Refers.braced (r.takeWhile (· ≠ '\x7d')) after
      rw [← hafter, List.takeWhile_append_dropWhile] at hrefers
      exact absurd hrefers h
    next => rfl
  · rw [reference?_of_ne fun r hr => hbrace ⟨r, hr⟩]
    cases cs with
    | nil => rfl
    | cons c rest =>
      rw [List.takeWhile_cons_of_neg fun hc => h (.bare rest hc)]
      rfl

theorem templateParts_dollar {fuel : Nat} (h : ∀ after, cs ≠ '$' :: after) : templateParts (fuel + 1) ('$' :: cs) =
    match reference? cs with
    | some (name, after) => .group name :: templateParts fuel after
    | none => .literal '$' :: templateParts fuel cs := templateParts.eq_4 fuel cs h

theorem run_ne_dollar (hne : name ≠ []) (hname : ∀ c ∈ name, isReferenceLetter c = true) (after : List Char) :
    name ++ rest ≠ '$' :: after := by
  obtain ⟨c, more, rfl⟩ := List.exists_cons_of_ne_nil hne
  exact fun h => letter_ne_dollar (hname c List.mem_cons_self) (List.cons.inj h).1

theorem Begins.templateParts_eq {fuel : Nat} {piece : TemplatePiece} (h : Begins cs piece rest) :
    templateParts (fuel + 1) cs = piece.part :: templateParts fuel rest := by
  cases h with
  | dollar => rfl
  | braced _ hname =>
    rw [templateParts_dollar (by simp), reference?_braced hname]
    rfl
  | bare hne hname hrest =>
    rw [templateParts_dollar (run_ne_dollar hne hname), reference?_bare hne hname hrest]
    rfl
  | sign hrest =>
    rw [templateParts_dollar (by rintro after rfl; exact hrest (.dollar after)), reference?_none hrest]
    rfl
  | other _ hc =>
    rw [templateParts]
    · rfl
    · exact hc

theorem Begins.shorter {piece : TemplatePiece} (h : Begins cs piece rest) : rest.length < cs.length := by
  cases h <;> simp <;> omega

/-- Every text begins with something. -/
theorem exists_begins (c : Char) (cs : List Char) : ∃ piece rest, Begins (c :: cs) piece rest := by
  by_cases hc : c = '$'
  · subst hc
    by_cases h : Refers cs
    · cases h with
      | dollar rest => exact ⟨_, _, .dollar rest⟩
      | braced name rest =>
        -- the name goes on to the first closing brace only
        have hbrace : '\x7d' ∈ name ++ '\x7d' :: rest := by simp
        obtain ⟨front, back, hname, hfront⟩ := List.eq_append_cons_of_mem hbrace
        rw [hname]
        exact ⟨_, _, .braced back hfront⟩
      | @bare d rest hd =>
        have hne : (d :: rest).takeWhile isReferenceLetter ≠ [] := by
          rw [List.takeWhile_cons_of_pos hd]
          exact List.cons_ne_nil _ _
        have hrun := Begins.bare hne (fun c hc => List.mem_takeWhile_imp hc) (head_dropWhile isReferenceLetter (d :: rest))
        rw [List.takeWhile_append_dropWhile] at hrun
        exact ⟨_, _, hrun⟩
    · exact ⟨_, _, .sign h⟩
  · exact ⟨_, _, .other cs hc⟩

theorem exists_reads (cs : List Char) : ∃ ps, Reads cs ps := by
  induction hn : cs.length using Nat.strong_induction_on generalizing cs with
  | _ n ih =>
    cases cs with
    | nil => exact ⟨[], .done⟩
    | cons c cs =>
      obtain ⟨piece, rest, h⟩ := exists_begins c cs
      obtain ⟨ps, hps⟩ := ih rest.length (hn ▸ h.shorter) rest rfl
      exact ⟨piece :: ps, .next h hps⟩

/-- The parts of a template are those of its reading. -/
theorem Reads.templateParts_eq {fuel : Nat} (h : Reads cs ps) (hfuel : cs.length < fuel) :
    templateParts fuel cs = ps.map TemplatePiece.part := by
  induction h generalizing fuel with
  | done =>
    cases fuel with
    | zero => omega
    | succ => rfl
  | next hfirst _ ih =>
    have hshort := hfirst.shorter
    cases fuel with
    | zero => omega
    | succ fuel => rw [hfirst.templateParts_eq, ih (by omega), List.map_cons]

theorem Reads.template_eq {text : String} (h : Reads text.toList ps) : template text = ps.map TemplatePiece.part :=
  h.templateParts_eq (by rw [String.length_toList]; exact Nat.lt_succ_self _)

/-! ## References that run on -/

theorem ambiguousReference?_other (hc : c ≠ '$') : ambiguousReference? (c :: rest) = ambiguousReference? rest := by
  rw [ambiguousReference?]
  all_goals
    intros
    simp_all

theorem ambiguousReference?_skip (h : ∀ c ∈ name, c ≠ '$') :
    ambiguousReference? (name ++ rest) = ambiguousReference? rest := by
  induction name with
  | nil => rfl
  | cons c name ih =>
    rw [List.cons_append, ambiguousReference?_other (h c List.mem_cons_self), ih fun d hd => h d (List.mem_cons_of_mem c hd)]

theorem ambiguousReference?_dollar (h : ∀ after, cs ≠ '$' :: after) : ambiguousReference? ('$' :: cs) =
    if !(cs.takeWhile isAsciiDigit).isEmpty && (cs.dropWhile isAsciiDigit).head?.any isNameStart then
      some (cs.takeWhile isAsciiDigit, (cs.dropWhile isAsciiDigit).takeWhile isReferenceLetter)
    else ambiguousReference? cs := by
  rw [ambiguousReference?]
  exact h

theorem runsOn_eq (name : List Char) :
    runsOn name = (!(name.takeWhile isAsciiDigit).isEmpty && !(name.dropWhile isAsciiDigit).isEmpty) := by
  have hall : name.all isAsciiDigit = (name.dropWhile isAsciiDigit).isEmpty := by
    rw [Bool.eq_iff_iff, List.isEmpty_iff, List.dropWhile_eq_nil_iff, List.all_eq_true]
  have hhead : name.head?.any isAsciiDigit = !(name.takeWhile isAsciiDigit).isEmpty := by
    cases name with
    | nil => rfl
    | cons c name => cases hc : isAsciiDigit c <;> simp [hc]
  rw [runsOn, hall, hhead]

/-- Of a run of letters the scan takes the digits first, and then the others if there are any. -/
theorem ambiguousReference?_bare (hne : name ≠ []) (hname : ∀ c ∈ name, isReferenceLetter c = true)
    (hrest : ∀ c ∈ rest.head?, isReferenceLetter c = false) : ambiguousReference? ('$' :: (name ++ rest)) =
      if runsOn name then some (name.takeWhile isAsciiDigit, name.dropWhile isAsciiDigit) else ambiguousReference? rest := by
  have hsplit : name.takeWhile isAsciiDigit ++ (name.dropWhile isAsciiDigit ++ rest) = name ++ rest := by
    rw [← List.append_assoc, List.takeWhile_append_dropWhile]
  have hletters : ∀ c ∈ name.dropWhile isAsciiDigit, isReferenceLetter c = true := fun c hc =>
    hname c ((List.dropWhile_suffix _).mem hc)
  have hfirst := head_dropWhile isAsciiDigit name
  rw [ambiguousReference?_dollar (run_ne_dollar hne hname), runsOn_eq,
    ambiguousReference?_skip fun c hc => letter_ne_dollar (hname c hc)]
  generalize name.dropWhile isAsciiDigit = more at hsplit hletters hfirst
  have hstop : ∀ c ∈ (more ++ rest).head?, isAsciiDigit c = false ∧ isNameStart c = !more.isEmpty := by
    cases more with
    | nil =>
      intro c hc
      have hc := hrest c hc
      have hd : isAsciiDigit c = false := Bool.eq_false_iff.2 fun hd => by simp [isReferenceLetter_of_digit hd] at hc
      exact ⟨hd, (isNameStart_of_not_digit hd).trans hc⟩
    | cons c more =>
      rintro d ⟨⟩
      have hd := hfirst c rfl
      exact ⟨hd, (isNameStart_of_not_digit hd).trans (hletters c List.mem_cons_self)⟩
  have hrun : ∀ c ∈ name.takeWhile isAsciiDigit, isAsciiDigit c = true := fun c hc => List.mem_takeWhile_imp hc
  obtain ⟨hdigits, hafter⟩ := span_run hrun fun c hc => (hstop c hc).1
  rw [hsplit] at hdigits hafter
  rw [hdigits, hafter, (span_run hletters hrest).1]
  have hstart : (more ++ rest).head?.any isNameStart = !more.isEmpty := by
    cases hhead : (more ++ rest).head? with
    | none =>
      rw [List.head?_eq_none_iff, List.append_eq_nil_iff] at hhead
      rw [hhead.1]
      rfl
    | some c => exact (hstop c hhead).2
  rw [hstart]

/-- What the scan makes of a piece: it finds a name that runs on, and passes all others. -/
theorem Begins.ambiguous_eq {piece : TemplatePiece} (h : Begins cs piece rest) (hbraced : ∀ name, piece ≠ .braced name) :
    (ambiguousReference? cs).map (fun found => found.1 ++ found.2) =
      piece.ambiguous?.or ((ambiguousReference? rest).map fun found => found.1 ++ found.2) := by
  cases h with
  | dollar => rfl
  | braced => exact absurd rfl (hbraced _)
  | @bare name _ hne hname hrest =>
    rw [ambiguousReference?_bare hne hname hrest, TemplatePiece.ambiguous?]
    split
    · simp
    · rfl
  | sign hrest =>
    have hdigits : rest.takeWhile isAsciiDigit = [] := by
      cases rest with
      | nil => rfl
      | cons c after =>
        exact List.takeWhile_cons_of_neg fun hc => hrest (.bare after (isReferenceLetter_of_digit hc))
    rw [ambiguousReference?_dollar (by rintro after rfl; exact hrest (.dollar after)), hdigits]
    rfl
  | other _ hc =>
    rw [ambiguousReference?_other hc]
    rfl

theorem ambiguousReference?_dollar_none (hcs : ∀ after, cs ≠ '$' :: after) (h : ambiguousReference? ('$' :: cs) = none) :
    ambiguousReference? cs = none := by
  rw [ambiguousReference?_dollar hcs] at h
  split at h
  · cases h
  · exact h

/-- After a closing brace the scan is at the start of a piece again, unless it has stopped before. -/
theorem ambiguousReference?_brace : (name : List Char) → ambiguousReference? (name ++ '\x7d' :: rest) = none →
    ambiguousReference? rest = none
  | [], h => by rwa [List.nil_append, ambiguousReference?_other (by decide)] at h
  | c :: name, h => by
    by_cases hc : c = '$'
    · subst hc
      cases name with
      | nil => exact ambiguousReference?_brace [] (ambiguousReference?_dollar_none (by simp) h)
      | cons d name =>
        by_cases hd : d = '$'
        · subst hd
          exact ambiguousReference?_brace name h
        · refine ambiguousReference?_brace (d :: name) (ambiguousReference?_dollar_none ?_ h)
          exact fun after heq => hd (List.cons.inj heq).1
    · rw [List.cons_append, ambiguousReference?_other hc] at h
      exact ambiguousReference?_brace name h

theorem Begins.ambiguous_none {piece : TemplatePiece} (h : Begins cs piece rest) (hnone : ambiguousReference? cs = none) :
    piece.ambiguous? = none ∧ ambiguousReference? rest = none := by
  by_cases hbraced : ∃ name, piece = .braced name
  · obtain ⟨name, rfl⟩ := hbraced
    cases h with
    | braced =>
      rw [← List.cons_append] at hnone
      exact ⟨rfl, ambiguousReference?_brace _ (ambiguousReference?_dollar_none (by simp) hnone)⟩
  · have heq := h.ambiguous_eq fun name hname => hbraced ⟨name, hname⟩
    rw [hnone, Option.map_none, eq_comm, Option.or_eq_none_iff, Option.map_eq_none_iff] at heq
    exact heq

/-- Where the scan finds nothing, no reference runs on. -/
theorem Reads.none_sound (h : Reads cs ps) (hnone : ambiguousReference? cs = none) : ∀ p ∈ ps, p.ambiguous? = none := by
  induction h with
  | done => nofun
  | next hfirst _ ih =>
    obtain ⟨hpiece, hrest⟩ := hfirst.ambiguous_none hnone
    exact List.forall_mem_cons.2 ⟨hpiece, ih hrest⟩

theorem Begins.suffix {piece : TemplatePiece} (h : Begins cs piece rest) : rest <:+ cs := by
  cases h with
  | dollar => exact ⟨['$', '$'], rfl⟩
  | @braced name _ _ => exact ⟨'$' :: '\x7b' :: (name ++ ['\x7d']), by simp⟩
  | @bare name _ _ _ _ => exact ⟨'$' :: name, rfl⟩
  | sign => exact ⟨['$'], rfl⟩
  | @other c _ _ => exact ⟨[c], rfl⟩

/-- Where no name stands in braces, the scan finds the first reference that runs on. -/
theorem Reads.ambiguous_eq (h : Reads cs ps) (hbraces : ¬ ['$', '\x7b'] <:+: cs) :
    (ambiguousReference? cs).map (fun found => found.1 ++ found.2) = ps.findSome? TemplatePiece.ambiguous? := by
  induction h with
  | done => rfl
  | @next cs rest piece ps hfirst _ ih =>
    have hnone : ∀ name, piece ≠ .braced name := by
      rintro name rfl
      cases hfirst with
      | braced rest => exact hbraces (List.IsPrefix.isInfix ⟨name ++ '\x7d' :: rest, rfl⟩)
    rw [hfirst.ambiguous_eq hnone, ih fun hrest => hbraces (hrest.trans hfirst.suffix.isInfix), List.findSome?_cons]
    cases piece.ambiguous? <;> rfl

end Graft.Regex

/-! ## Manifests -/

namespace Graft.Manifest

open Regex

/-- A valid manifest has no replacement in which the scan finds a reference that runs on. -/
theorem valid_replacement {m m' : Manifest} (hm : m.validated = .ok m') {d : Definition} (hd : d ∈ m'.patches)
    {pattern replacement : String} {expected : Option Nat} (ho : d.operation = .regex pattern replacement expected) :
    ambiguousReference? replacement.toList = none := by
  obtain ⟨rfl, hissues⟩ := validated_issues hm
  rw [issues, List.append_eq_nil_iff] at hissues
  have hfaults := definitionIssues_nil hissues.2 d hd
  rw [Definition.faults, ho, Operation.faults, List.append_eq_nil_iff, List.append_eq_nil_iff, replacementFaults] at hfaults
  split at hfaults
  next => cases hfaults.2.2
  next hnone => exact hnone

/-- The scan is as exact as it can be for a scan that does not know of braces. Every template has a reading, whose parts are
those that are expanded. Where the scan finds nothing, as in every replacement of a valid manifest, no reference of the reading
runs on, and where nothing stands in braces it finds the first one that does. -/
theorem references_scanned :
    (∀ template : String, ∃ ps, Reads template.toList ps) ∧
    (∀ text ps, Reads text.toList ps → template text = ps.map TemplatePiece.part ∧
      (ambiguousReference? text.toList = none → ∀ name, .bare name ∈ ps → runsOn name = false) ∧
      (¬ ['$', '\x7b'] <:+: text.toList →
        (ambiguousReference? text.toList).map (fun found => found.1 ++ found.2) = ps.findSome? TemplatePiece.ambiguous?)) ∧
    ∀ m m' : Manifest, m.validated = .ok m' → ∀ d ∈ m'.patches, ∀ pattern replacement expected,
      d.operation = .regex pattern replacement expected → ∀ ps, Reads replacement.toList ps →
        ∀ name, .bare name ∈ ps → runsOn name = false := by
  have sound {cs : List Char} {ps : List TemplatePiece} (h : Reads cs ps) (hnone : ambiguousReference? cs = none)
      (name : List Char) (hname : .bare name ∈ ps) : runsOn name = false := by
    have hpiece := h.none_sound hnone _ hname
    rw [TemplatePiece.ambiguous?] at hpiece
    split at hpiece
    · cases hpiece
    · exact Bool.not_eq_true _ ▸ ‹_›
  refine ⟨fun template => exists_reads _, fun text ps h => ⟨h.template_eq, sound h, h.ambiguous_eq⟩, ?_⟩
  intro m m' hm d hd pattern replacement expected ho ps h
  exact sound h (valid_replacement hm hd ho)

/-- A number of pixels, and a price. -/
def pixelManifest : Manifest where
  name := "m"
  description := none
  versionRange := none
  patches := [{ id := "size", file := none, operation := .regex "([0-9]+)px" "$1 $\x7b1\x7dpx $$1a" none }]

theorem pixelManifest_scanned : pixelManifest.validated = .ok pixelManifest ∧ ∃ ps,
    Reads "$1 $\x7b1\x7dpx $$1a".toList ps ∧ ps.take 3 = [.bare ['1'], .literal ' ', .braced ['1']] ∧
      ∀ name, .bare name ∈ ps → runsOn name = false := by
  have hvalid : pixelManifest.validated = .ok pixelManifest := by
    rw [validated, if_pos (by decide +kernel)]
  have hother (c : Char) {rest : List Char} {ps : List TemplatePiece} (hc : c ≠ '$') (h : Reads rest ps) :
      Reads (c :: rest) (.literal c :: ps) := .next (.other rest hc) h
  have hbare : Begins ('$' :: (['1'] ++ " $\x7b1\x7dpx $$1a".toList)) (.bare ['1']) " $\x7b1\x7dpx $$1a".toList :=
    .bare (by decide) (List.forall_mem_singleton.2 rfl) (by rintro c ⟨⟩; rfl)
  have hbraced : Begins ('$' :: '\x7b' :: (['1'] ++ '\x7d' :: "px $$1a".toList)) (.braced ['1']) "px $$1a".toList :=
    .braced _ (by decide)
  have hreads : Reads "$1 $\x7b1\x7dpx $$1a".toList _ :=
    .next hbare <| hother ' ' (by decide) <| .next hbraced <|
    hother 'p' (by decide) <| hother 'x' (by decide) <| hother ' ' (by decide) <|
    .next (.dollar "1a".toList) <| hother '1' (by decide) <| hother 'a' (by decide) .done
  exact ⟨hvalid, _, hreads, rfl, references_scanned.2.2 _ _ hvalid _ (List.mem_singleton.2 rfl) _ _ _ rfl _ hreads⟩

end Graft.Manifest
