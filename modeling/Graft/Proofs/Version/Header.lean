import Graft.Proofs.Version.Form
import Mathlib.Data.List.Pairwise
/-!
# Versions across the cut of a header

Only the first bytes of a bundle are looked at, and a version text may lie across the end of them. What the pattern finds in the
header it finds at the same place in the whole bundle (`captures_append`), but there it may be longer. So a version that is
detected is that of the whole bundle exactly if it does not go on behind the cut (`detected_whole_iff`).
-/

namespace Graft.Version

open Unicode (isDecimalDigit isWhiteSpace isWord)
open Text (dropWhile_append_of_ne_nil)

variable {cs more text rest : List Char} {c sign before : Char} {found : List Char × List Char}

/-! ## On a line -/

/-- The version text at a place, if a word can begin there. -/
def versionHere? (before : Char) (cs : List Char) : Option (List Char × List Char) :=
  if isWord before then none else versionText? cs

theorem versionHere?_eq_some :
    versionHere? before cs = some found ↔ isWord before = false ∧ versionText? cs = some found := by
  rw [versionHere?]
  cases isWord before <;> simp

theorem versionHere?_append (h : versionHere? before cs = some found) (more : List Char) :
    ∃ longer, versionHere? before (cs ++ more) = some longer ∧ Grows more found longer := by
  obtain ⟨hword, hread⟩ := versionHere?_eq_some.1 h
  obtain ⟨longer, hlonger, hgrows⟩ := versionText?_append hread more
  exact ⟨longer, versionHere?_eq_some.2 ⟨hword, hlonger⟩, hgrows⟩

theorem versionHere?_none_append (h : versionHere? before cs = none) (hstays : '\n' ∈ cs ∨ 2 ≤ innerDots cs)
    (more : List Char) : versionHere? before (cs ++ more) = none := by
  rw [versionHere?] at h ⊢
  split
  · rfl
  next hword =>
    rw [if_neg hword] at h
    rcases hstays with hline | hdots
    · exact versionText?_none_append h hline more
    · by_contra hread
      obtain ⟨begun, hread⟩ := Option.ne_none_iff_exists'.1 hread
      have := innerDots_of_begun h hread
      omega

theorem versionOnLine?_cons (before c : Char) (rest : List Char) : versionOnLine? before (c :: rest) =
    (versionHere? before (c :: rest)).or (if c = '\n' then none else versionOnLine? c rest) := by
  rw [versionOnLine?, versionHere?]
  cases (if isWord before then none else versionText? (c :: rest)) <;> rfl

/-- What is found on a line is found at its front or, on the same line, further on. -/
theorem versionOnLine?_eq_some : versionOnLine? before (c :: rest) = some found ↔
    versionHere? before (c :: rest) = some found ∨
      versionHere? before (c :: rest) = none ∧ c ≠ '\n' ∧ versionOnLine? c rest = some found := by
  rw [versionOnLine?_cons, Option.or_eq_some_iff, Option.ite_none_left_eq_some]

theorem innerDots_of_found (h : versionOnLine? before cs = some found) : 2 ≤ innerDots cs := by
  induction cs generalizing before with
  | nil => cases h
  | cons c rest ih =>
    rcases versionOnLine?_eq_some.1 h with hhere | ⟨-, -, hfurther⟩
    · exact innerDots_of_read (versionHere?_eq_some.1 hhere).2
    · exact (ih hfurther).trans (innerDots_cons c rest)

theorem versionOnLine?_append (h : versionOnLine? before cs = some found) (more : List Char) :
    ∃ longer, versionOnLine? before (cs ++ more) = some longer ∧ Grows more found longer := by
  induction cs generalizing before with
  | nil => cases h
  | cons c rest ih =>
    rcases versionOnLine?_eq_some.1 h with hhere | ⟨hnone, hline, hfurther⟩
    · obtain ⟨longer, hlonger, hgrows⟩ := versionHere?_append hhere more
      exact ⟨longer, versionOnLine?_eq_some.2 (.inl hlonger), hgrows⟩
    · obtain ⟨longer, hlonger, hgrows⟩ := ih hfurther
      -- A text that begins here would leave no room for the one that is found further on.
      have hdots := (innerDots_of_found hfurther).trans (innerDots_cons c rest)
      have hnone := versionHere?_none_append hnone (.inr hdots) more
      exact ⟨longer, versionOnLine?_eq_some.2 (.inr ⟨hnone, hline, hlonger⟩), hgrows⟩

theorem versionOnLine?_none_append (h : versionOnLine? before cs = none) (hline : '\n' ∈ cs) (more : List Char) :
    versionOnLine? before (cs ++ more) = none := by
  induction cs generalizing before with
  | nil => cases hline
  | cons c rest ih =>
    rw [versionOnLine?_cons, Option.or_eq_none_iff] at h
    obtain ⟨hhere, hfurther⟩ := h
    rw [List.cons_append, versionOnLine?_cons, Option.or_eq_none_iff]
    refine ⟨versionHere?_none_append hhere (.inl hline) more, ?_⟩
    split
    · rfl
    next hc =>
      rw [if_neg hc] at hfurther
      exact ih hfurther ((List.mem_cons.1 hline).resolve_left (Ne.symm hc))

/-- What is found stands at the end of what was looked at. -/
theorem versionOnLine?_spec (h : versionOnLine? before cs = some found) :
    found.1 ++ found.2 <:+ cs ∧ VersionForm found.1 ∧ ¬ GoesOn found.1 found.2 := by
  induction cs generalizing before with
  | nil => cases h
  | cons c rest ih =>
    rcases versionOnLine?_eq_some.1 h with hhere | ⟨-, -, hfurther⟩
    · obtain ⟨hform, hread, hstop⟩ := versionText?_spec (versionHere?_eq_some.1 hhere).2
      refine ⟨hread ▸ ?_, hform, hstop⟩
      rcases eq_unmarked (c :: rest) with hmark | hmark
      · exact hmark ▸ List.suffix_rfl
      · rw [hmark]
        exact List.suffix_cons 'v' _
    · obtain ⟨hsuffix, hrest⟩ := ih hfurther
      exact ⟨hsuffix.trans (List.suffix_cons c rest), hrest⟩

/-! ## In a comment -/

theorem comment?_spec (h : comment? cs = some (sign, rest)) : rest <:+ cs ∧ ('\n' ∈ cs → '\n' ∈ rest) ∧
    ∀ more, comment? (cs ++ more) = some (sign, rest ++ more) := by
  unfold comment? at h
  split at h <;> cases h
  · exact ⟨⟨['/', '/'], rfl⟩, by simp, fun _ => rfl⟩
  · exact ⟨⟨['/', '*'], rfl⟩, by simp, fun _ => rfl⟩
  · exact ⟨⟨['*'], rfl⟩, by simp, fun _ => rfl⟩

theorem comment?_none_append (h : comment? cs = none) (hline : '\n' ∈ cs) (more : List Char) :
    comment? (cs ++ more) = none := by
  match cs, h, hline with
  | [_], _, hline =>
    obtain rfl := List.mem_singleton.1 hline
    rfl
  | c :: d :: rest, h, _ =>
    unfold comment? at h ⊢
    split at h <;> simp_all

theorem versionInComment?_append (h : versionInComment? cs = some found) (more : List Char) :
    ∃ longer, versionInComment? (cs ++ more) = some longer ∧ Grows more found longer := by
  rw [versionInComment?] at h
  obtain ⟨⟨sign, rest⟩, hcomment, hfound⟩ := Option.bind_eq_some_iff.1 h
  obtain ⟨longer, hlonger, hgrows⟩ := versionOnLine?_append hfound more
  have hne : cs.dropWhile isWhiteSpace ≠ [] := by
    intro hnil
    rw [hnil] at hcomment
    cases hcomment
  refine ⟨longer, ?_, hgrows⟩
  rw [versionInComment?, dropWhile_append_of_ne_nil hne, (comment?_spec hcomment).2.2 more]
  exact hlonger

theorem versionInComment?_none_append (h : versionInComment? cs = none) (hline : '\n' ∈ cs.dropWhile isWhiteSpace)
    (more : List Char) : versionInComment? (cs ++ more) = none := by
  rw [versionInComment?] at h ⊢
  rw [dropWhile_append_of_ne_nil (List.ne_nil_of_mem hline)]
  cases hcomment : comment? (cs.dropWhile isWhiteSpace) with
  | none => rw [comment?_none_append hcomment hline]; rfl
  | some opened =>
    obtain ⟨-, hrest, happend⟩ := comment?_spec hcomment
    rw [hcomment] at h
    rw [happend]
    exact versionOnLine?_none_append h (hrest hline) more

theorem versionInComment?_spec (h : versionInComment? cs = some found) :
    found.1 ++ found.2 <:+ cs ∧ VersionForm found.1 ∧ ¬ GoesOn found.1 found.2 := by
  rw [versionInComment?] at h
  obtain ⟨⟨sign, rest⟩, hcomment, hfound⟩ := Option.bind_eq_some_iff.1 h
  obtain ⟨hsuffix, hfound⟩ := versionOnLine?_spec hfound
  exact ⟨hsuffix.trans ((comment?_spec hcomment).1.trans (List.dropWhile_suffix _)), hfound⟩

/-! ## In a text -/

theorem nextLine_append (h : '\n' ∈ cs) (more : List Char) : nextLine (cs ++ more) = nextLine cs ++ more := by
  have hne : cs.dropWhile (· ≠ '\n') ≠ [] := by
    intro hnil
    simpa using List.dropWhile_eq_nil_iff.1 hnil _ h
  rw [nextLine, nextLine, dropWhile_append_of_ne_nil hne, List.tail_append_of_ne_nil hne]

theorem nextLine_of_no_newline (h : '\n' ∉ cs) : nextLine cs = [] := by
  rw [nextLine, List.dropWhile_eq_nil_iff.2, List.tail_nil]
  intro c hc
  rw [decide_eq_true_iff]
  rintro rfl
  exact h hc

theorem nextLine_suffix (cs : List Char) : nextLine cs <:+ cs := (List.tail_suffix _).trans (List.dropWhile_suffix _)

/-- On the last line with a character that is no blank, going to the next line ends the text or leaves out blanks. -/
theorem nextLine_blanks (h : '\n' ∉ cs.dropWhile isWhiteSpace) :
    nextLine cs = [] ∨ (nextLine cs).dropWhile isWhiteSpace = cs.dropWhile isWhiteSpace := by
  induction cs with
  | nil => exact .inl rfl
  | cons c rest ih =>
    by_cases hblank : isWhiteSpace c = true
    · rw [List.dropWhile_cons_of_pos hblank] at h ⊢
      by_cases hc : c = '\n'
      · subst hc
        exact .inr (by simp [nextLine])
      · have hnext : nextLine (c :: rest) = nextLine rest := by simp [nextLine, hc]
        rw [hnext]
        exact ih h
    · rw [List.dropWhile_cons_of_neg hblank] at h
      exact .inl (nextLine_of_no_newline h)

/-- The version texts of a text in order, each with what follows it. -/
def finds : Nat → List Char → List (List Char × List Char)
  | 0, _ => []
  | _ + 1, [] => []
  | fuel + 1, cs =>
    match versionInComment? cs with
    | some found => found :: finds fuel (nextLine found.2)
    | none => finds fuel (nextLine cs)

theorem versionTexts_eq (fuel : Nat) (cs : List Char) : versionTexts fuel cs = (finds fuel cs).map Prod.fst := by
  induction fuel generalizing cs with
  | zero => rfl
  | succ fuel ih =>
    cases cs with
    | nil => rfl
    | cons c rest =>
      rw [versionTexts.eq_3 _ _ (by simp), finds.eq_3 _ _ (by simp)]
      cases versionInComment? (c :: rest) <;> simp [ih]

variable {fuel fuel' : Nat}

theorem finds_nil (fuel : Nat) : finds fuel [] = [] := by cases fuel <;> rfl

theorem finds_succ (h : cs ≠ []) (fuel : Nat) : finds (fuel + 1) cs =
    match versionInComment? cs with
    | some found => found :: finds fuel (nextLine found.2)
    | none => finds fuel (nextLine cs) := finds.eq_3 _ _ h

/-- Nothing is found any more once the last line with a character that is no blank has nothing. -/
theorem finds_eq_nil (h : versionInComment? cs = none) (hline : '\n' ∉ cs.dropWhile isWhiteSpace) (fuel : Nat) :
    finds fuel cs = [] := by
  induction fuel generalizing cs with
  | zero => rfl
  | succ fuel ih =>
    by_cases hne : cs = []
    · rw [hne, finds_nil]
    · rw [finds_succ hne, h]
      rcases nextLine_blanks hline with hnil | hsame
      · rw [hnil]
        exact finds_nil fuel
      · refine ih ?_ (hsame ▸ hline)
        rwa [versionInComment?, hsame, ← versionInComment?]

/-- What is found in a text is found at the same place in a longer text, where it may go on. -/
theorem finds_append (h : found ∈ finds fuel cs) (hfuel : fuel ≤ fuel') (more : List Char) :
    ∃ longer ∈ finds fuel' (cs ++ more), Grows more found longer := by
  induction fuel generalizing cs fuel' with
  | zero => cases h
  | succ fuel ih =>
    obtain ⟨fuel', rfl⟩ : ∃ n, fuel' = n + 1 := ⟨fuel' - 1, by omega⟩
    have hne : cs ≠ [] := by
      rintro rfl
      cases h
    have hfuel : fuel ≤ fuel' := Nat.le_of_succ_le_succ hfuel
    rw [finds_succ (List.append_ne_nil_of_left_ne_nil hne more)]
    cases hread : versionInComment? cs with
    | some first =>
      obtain ⟨longer, hlonger, hgrows⟩ := versionInComment?_append hread more
      rw [finds_succ hne, hread] at h
      rw [hlonger]
      rcases List.mem_cons.1 h with rfl | h
      · exact ⟨longer, List.mem_cons_self, hgrows⟩
      · have hline : '\n' ∈ first.2 := by
          by_contra hline
          rw [nextLine_of_no_newline hline, finds_nil] at h
          cases h
        obtain rfl := hgrows.eq_of_newline (versionInComment?_spec hread).2.2 hline
        obtain ⟨later, hmem, hlater⟩ := ih h hfuel
        refine ⟨later, List.mem_cons_of_mem _ ?_, hlater⟩
        rwa [nextLine_append hline]
    | none =>
      by_cases hline : '\n' ∈ cs.dropWhile isWhiteSpace
      · rw [versionInComment?_none_append hread hline, nextLine_append ((List.dropWhile_suffix _).mem hline)]
        rw [finds_succ hne, hread] at h
        exact ih h hfuel
      · rw [finds_eq_nil hread hline] at h
        cases h

theorem finds_spec (h : found ∈ finds fuel cs) :
    found.1 ++ found.2 <:+ cs ∧ VersionForm found.1 ∧ ¬ GoesOn found.1 found.2 := by
  induction fuel generalizing cs with
  | zero => cases h
  | succ fuel ih =>
    by_cases hne : cs = []
    · rw [hne] at h
      cases h
    rw [finds_succ hne] at h
    cases hread : versionInComment? cs with
    | some first =>
      obtain ⟨hsuffix, hfirst⟩ := versionInComment?_spec hread
      rw [hread] at h
      rcases List.mem_cons.1 h with rfl | h
      · exact ⟨hsuffix, hfirst⟩
      · obtain ⟨hlater, hfound⟩ := ih h
        exact ⟨hlater.trans ((nextLine_suffix _).trans ((List.suffix_append _ _).trans hsuffix)), hfound⟩
    | none =>
      rw [hread] at h
      obtain ⟨hlater, hfound⟩ := ih h
      exact ⟨hlater.trans (nextLine_suffix cs), hfound⟩

/-- Each version text stands behind the ones before it. -/
theorem finds_pairwise (fuel : Nat) (cs : List Char) :
    (finds fuel cs).Pairwise fun found later => (later.1 ++ later.2).length ≤ found.2.length := by
  induction fuel generalizing cs with
  | zero => exact .nil
  | succ fuel ih =>
    by_cases hne : cs = []
    · rw [hne, finds_nil]
      exact .nil
    rw [finds_succ hne]
    cases versionInComment? cs with
    | some first =>
      exact .cons (fun later hlater => ((finds_spec hlater).1.trans (nextLine_suffix _)).length_le) (ih _)
    | none => exact ih _

/-- At one place only one version text is found. -/
theorem finds_unique {found' : List Char × List Char} (h : found ∈ finds fuel cs) (h' : found' ∈ finds fuel cs)
    (heq : found.1 ++ found.2 = found'.1 ++ found'.2) : found = found' := by
  have hsymm : (finds fuel cs).Pairwise fun a b => a.1 ++ a.2 ≠ b.1 ++ b.2 := by
    refine (finds_pairwise fuel cs).imp_of_mem fun {a b} ha _ hlater hsame => ?_
    have hpos := List.length_pos_iff.2 (finds_spec ha).2.1.ne_nil
    rw [← hsame, List.length_append] at hlater
    omega
  have : Std.Symm fun a b : List Char × List Char => a.1 ++ a.2 ≠ b.1 ++ b.2 := ⟨fun _ _ h => h.symm⟩
  by_contra hne
  exact hsymm.forall h h' hne heq

/-! ## The cut -/

/-- The front of a source that is looked at. -/
def header (source : String) : List Char := takeBytes headerSize source.toList

/-- What the pattern takes in a text, each version text with what follows it. -/
def captures (cs : List Char) : List (List Char × List Char) := finds (cs.length + 1) cs

/-- The pattern takes a version text where the front of a text ends. -/
def Captures (cs front text : List Char) : Prop := ∃ rest, (text, rest) ∈ captures cs ∧ cs = front ++ text ++ rest

def isVersion (found : List Char × List Char) : Bool := (Version.read? (String.ofList found.1)).isSome

theorem detect?_eq (source : String) :
    detect? source = ((captures (header source)).find? isVersion).map fun found => String.ofList found.1 := by
  rw [detect?, versionTexts_eq, List.map_map, List.find?_map]
  rfl

/-- No more characters fit. -/
theorem takeBytes_spec (room : Nat) (cs : List Char) : ∃ more, cs = takeBytes room cs ++ more ∧
    (String.ofList (takeBytes room cs)).utf8ByteSize ≤ room ∧
    ∀ c ∈ more.head?, room < (String.ofList (takeBytes room cs)).utf8ByteSize + c.utf8Size := by
  induction cs generalizing room with
  | nil => exact ⟨[], rfl, by simp [takeBytes], by simp⟩
  | cons c rest ih =>
    rw [takeBytes]
    split
    next hroom =>
      obtain ⟨more, hmore, hle, hnext⟩ := ih (room - c.utf8Size)
      rw [String.ofList_cons, String.utf8ByteSize_append, String.utf8ByteSize_singleton]
      refine ⟨more, by rw [List.cons_append, ← hmore], by omega, fun d hd => ?_⟩
      have hd := hnext d hd
      omega
    next hroom =>
      refine ⟨c :: rest, rfl, by simp, fun d hd => ?_⟩
      obtain rfl : c = d := by simpa using hd
      simpa using hroom

/-- A source is cut at the last boundary between characters that leaves no more than the bytes that are looked at. -/
theorem cut_boundary (source : String) :
    (⟨(String.ofList (header source)).utf8ByteSize⟩ : String.Pos.Raw).IsValid source ∧
    (String.ofList (header source)).utf8ByteSize ≤ headerSize ∧
    ∀ p : String.Pos.Raw, p.IsValid source → p.byteIdx ≤ headerSize →
      p.byteIdx ≤ (String.ofList (header source)).utf8ByteSize := by
  obtain ⟨more, hmore, hle, hnext⟩ := takeBytes_spec headerSize source.toList
  rw [← header] at hmore hle hnext
  refine ⟨String.Pos.Raw.isValid_iff_exists_append.2 ⟨String.ofList (header source), String.ofList more, ?_, rfl⟩,
    hle, ?_⟩
  · rw [← String.ofList_append, ← hmore, String.ofList_toList]
  · intro p hp hroom
    obtain ⟨s, t, rfl, rfl⟩ := String.Pos.Raw.isValid_iff_exists_append.1 hp
    rw [String.byteIdx_rawEndPos] at hroom ⊢
    rw [String.toList_append] at hmore
    rcases List.append_eq_append_iff.1 hmore with ⟨part, hpart, -⟩ | ⟨part, hpart, hrest⟩
    · rw [hpart, String.ofList_append, String.ofList_toList, String.utf8ByteSize_append]
      exact Nat.le_add_right _ _
    · rcases part with - | ⟨c, part⟩
      · rw [List.append_nil] at hpart
        rw [← hpart, String.ofList_toList]
      · -- With one more character the source would not fit.
        have hsize : s.utf8ByteSize =
            (String.ofList (header (s ++ t))).utf8ByteSize + (String.ofList (c :: part)).utf8ByteSize := by
          rw [← String.utf8ByteSize_append, ← String.ofList_append, ← hpart, String.ofList_toList]
        rw [String.ofList_cons, String.utf8ByteSize_append, String.utf8ByteSize_singleton] at hsize
        have hc := hnext c (by simp [hrest])
        omega

/-- What the pattern takes in a text it takes in a longer text where that does not go on with it. -/
theorem captures_append {cs rest : List Char} (h : (text, rest) ∈ captures cs) (more : List Char) :
    ∃ front, cs = front ++ text ++ rest ∧ (∃ longer, Captures (cs ++ more) front longer ∧ text <+: longer) ∧
      (Captures (cs ++ more) front text ↔ ¬ GoesOn text (rest ++ more)) ∧
      (GoesOn text (rest ++ more) → more ≠ [] ∧ (rest = [] ∨ rest = ['-'] ∨ rest = ['+'])) := by
  obtain ⟨⟨front, hfront⟩, -, hstop⟩ := finds_spec h
  have hfuel : cs.length + 1 ≤ (cs ++ more).length + 1 := by simp
  obtain ⟨⟨longer, behind⟩, hlonger, hgrows⟩ := finds_append h hfuel more
  have hcs : cs ++ more = front ++ longer ++ behind := by
    rw [List.append_assoc, hgrows.same, ← hfront]
    simp
  refine ⟨front, by rw [List.append_assoc, hfront], ⟨longer, ⟨behind, hlonger, hcs⟩, hgrows.begins⟩, ?_, fun hgoes =>
    hgoes.at_cut hstop⟩
  rw [← hgrows.exact_iff]
  constructor
  · rintro ⟨behind', hmem, hwhole⟩
    have hsame : longer ++ behind = text ++ behind' := by
      rw [hcs, List.append_assoc, List.append_assoc] at hwhole
      exact List.append_cancel_left hwhole
    exact (Prod.mk.inj (finds_unique hlonger hmem hsame)).1
  · rintro rfl
    exact ⟨behind, hlonger, hcs⟩

/-- The cut of a source never divides a character. A version that is found before it is the version text of the whole source at
that place or the beginning of that, and the beginning only exactly if it goes on behind the cut. -/
theorem detected_whole_iff (source : String) :
    ((⟨(String.ofList (header source)).utf8ByteSize⟩ : String.Pos.Raw).IsValid source ∧
      (String.ofList (header source)).utf8ByteSize ≤ headerSize ∧
      ∀ p : String.Pos.Raw, p.IsValid source → p.byteIdx ≤ headerSize →
        p.byteIdx ≤ (String.ofList (header source)).utf8ByteSize) ∧
    ∀ v, detect? source = some v → ∃ front rest more,
      header source = front ++ v.toList ++ rest ∧ source.toList = header source ++ more ∧
      (captures (header source)).find? isVersion = some (v.toList, rest) ∧
      (∃ longer, Captures source.toList front longer ∧ v.toList <+: longer) ∧
      (Captures source.toList front v.toList ↔ ¬ GoesOn v.toList (rest ++ more)) ∧
      (GoesOn v.toList (rest ++ more) → more ≠ [] ∧ (rest = [] ∨ rest = ['-'] ∨ rest = ['+'])) := by
  refine ⟨cut_boundary source, fun v hv => ?_⟩
  rw [detect?_eq, Option.map_eq_some_iff] at hv
  obtain ⟨⟨text, rest⟩, hfind, rfl⟩ := hv
  obtain ⟨more, hmore, -, -⟩ := takeBytes_spec headerSize source.toList
  rw [← header] at hmore
  obtain ⟨front, hfront, hlonger, hexact, hcut⟩ := captures_append (List.mem_of_find?_eq_some hfind) more
  rw [← hmore] at hlonger hexact
  rw [String.toList_ofList]
  exact ⟨front, rest, more, hfront, hmore, hfind, hlonger, hexact, hcut⟩

/-- A pre-release in a header that is not cut. -/
theorem prerelease_whole :
    let source := "/*! Skyforge v1.4.2-rc.1 | (c) studio */\n!function()\x7b\x7d();"
    detect? source = some "1.4.2-rc.1" ∧
      ∃ front, header source = front ++ "1.4.2-rc.1".toList ++ " | (c) studio */\n!function()\x7b\x7d();".toList ∧
        Captures source.toList front "1.4.2-rc.1".toList := by
  intro source
  have hdetect : detect? source = some "1.4.2-rc.1" := by decide +kernel
  have hwhole : header source = source.toList := by decide +kernel
  obtain ⟨front, rest, more, hfront, hmore, hfind, -, hexact, hcut⟩ := (detected_whole_iff source).2 _ hdetect
  have hnone : more = [] := by simpa [hwhole] using hmore
  have hrest : (captures (header source)).find? isVersion =
    some ("1.4.2-rc.1".toList, " | (c) studio */\n!function()\x7b\x7d();".toList) := by decide +kernel
  obtain ⟨-, rfl⟩ := Prod.mk.inj (Option.some.inj (hfind.symm.trans hrest))
  exact ⟨hdetect, front, hfront, hexact.2 fun hgoes => (hcut hgoes).1 hnone⟩

/-! ### A version across the cut -/

theorem takeBytes_blanks (n room : Nat) (cs : List Char) :
    takeBytes (n + room) (List.replicate n ' ' ++ cs) = List.replicate n ' ' ++ takeBytes room cs := by
  induction n with
  | zero => simp
  | succ n ih =>
    have hsize : (' ').utf8Size = 1 := by decide
    rw [List.replicate_succ, List.cons_append, List.cons_append, takeBytes, hsize, if_pos (by omega), ← ih]
    congr 2
    omega

theorem versionOnLine?_blank (before : Char) (cs : List Char) : versionOnLine? before (' ' :: cs) = versionOnLine? ' ' cs := by
  have hblank : isDecimalDigit ' ' = false := by decide +kernel
  have hread : versionText? (' ' :: cs) = none := by simp [versionText?, after?, digits?, hblank]
  rw [versionOnLine?_cons, versionHere?, hread, ite_self, Option.none_or, if_neg (by decide)]

theorem versionOnLine?_blanks (before : Char) (n : Nat) (cs : List Char) :
    versionOnLine? before (List.replicate (n + 1) ' ' ++ cs) = versionOnLine? ' ' cs := by
  rw [List.replicate_succ, List.cons_append, versionOnLine?_blank]
  induction n with
  | zero => rfl
  | succ n ih => rw [List.replicate_succ, List.cons_append, versionOnLine?_blank, ih]

/-- A comment with blanks and one version text. -/
theorem captures_blanks (n : Nat) (hfound : versionOnLine? ' ' cs = some found) (hline : '\n' ∉ found.2) :
    captures ('/' :: '*' :: (List.replicate (n + 1) ' ' ++ cs)) = [found] := by
  have hslash : isWhiteSpace '/' = false := by decide +kernel
  have hread : versionInComment? ('/' :: '*' :: (List.replicate (n + 1) ' ' ++ cs)) = some found := by
    have hcomment (rest : List Char) : comment? ('/' :: '*' :: rest) = some ('*', rest) := rfl
    simp only [versionInComment?, List.dropWhile_cons_of_neg (show ¬ isWhiteSpace '/' = true by simp [hslash]), hcomment,
      Option.bind_eq_bind, Option.bind_some]
    rw [versionOnLine?_blanks, hfound]
  rw [captures, finds_succ (by simp), hread]
  simp [nextLine_of_no_newline hline, finds_nil]

/-- The last digit of a version stands right behind the cut. -/
theorem version_cut_short :
    let front := '/' :: '*' :: List.replicate 4089 ' '
    let source := String.ofList (front ++ "1.2.34 */".toList)
    detect? source = some "1.2.3" ∧ header source = front ++ "1.2.3".toList ∧
      Captures source.toList front "1.2.34".toList ∧ ¬ Captures source.toList front "1.2.3".toList := by
  intro front source
  -- The blanks are kept uncounted, so that no step goes through them one by one.
  obtain ⟨n, hn⟩ : ∃ n, n = 4088 := ⟨4088, rfl⟩
  have hfront : front = '/' :: '*' :: List.replicate (n + 1) ' ' := by rw [hn]
  have hsource : source.toList = '/' :: '*' :: (List.replicate (n + 1) ' ' ++ "1.2.34 */".toList) := by
    rw [String.toList_ofList, hfront]
    rfl
  have hheader : header source = '/' :: '*' :: (List.replicate (n + 1) ' ' ++ "1.2.3".toList) := by
    rw [header, hsource, show headerSize = n + 1 + 5 + 1 + 1 by rw [hn]; rfl]
    exact congrArg (fun cs => '/' :: '*' :: cs) (takeBytes_blanks (n + 1) 5 _)
  have hcut : captures (header source) = [("1.2.3".toList, [])] := by
    rw [hheader]
    exact captures_blanks n (by decide +kernel) (by simp)
  have hwhole : captures source.toList = [("1.2.34".toList, " */".toList)] := by
    rw [hsource]
    exact captures_blanks n (by decide +kernel) (by decide)
  refine ⟨?_, ?_, ⟨" */".toList, by rw [hwhole]; exact List.mem_cons_self, ?_⟩, ?_⟩
  · rw [detect?_eq, hcut]
    decide +kernel
  · rw [hheader, hfront]
    rfl
  · rw [hsource, hfront]
    simp
  · rintro ⟨rest, hmem, -⟩
    rw [hwhole] at hmem
    simp at hmem

end Graft.Version
