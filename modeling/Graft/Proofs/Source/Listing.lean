import Graft.Proofs.Source.Evaluation
/-!
# Lists between brackets

The text of a list has a comma behind every part but the last, and one more behind a hole at the end. The reader of a list takes
every comma that stands where a part could for a hole. The two agree: the parts and the holes of the text are found again, wherever
the holes are and however many (`list_runs`). What the parts are read for is left open, so that this holds for values and patterns.
-/

namespace Graft.Source

open Read

variable {read : Readers} {value : Item → Option Tree} {modes : List Mode} {first later : Mode} {s : State} {t : Tree}
  {cs rest : List Char} {c : Char} {n : Nat}

/-! ## The text of a list -/

/-- The text between the brackets of a list. -/
def listText : List (Option (List Char)) → List Char
  | [] => []
  | [none] => [',']
  | [some text] => text
  | o :: os => o.getD [] ++ ',' :: ' ' :: listText os

/-- What follows the comma behind a part or a hole. -/
def furtherText (os : List (Option (List Char))) : List Char := if os.isEmpty then [] else ' ' :: listText os

theorem listText_none (os : List (Option (List Char))) : listText (none :: os) = ',' :: furtherText os := by
  cases os <;> rfl

theorem listText_some (text : List Char) (os : List (Option (List Char))) :
    listText (some text :: os) = text ++ if os.isEmpty then [] else ',' :: furtherText os := by
  cases os with
  | nil => exact (List.append_nil text).symm
  | cons o os => rfl

/-! ## Parts -/

theorem Begins.mono {starts starts' : Token → Bool} {text : List Char} (h : Begins starts text)
    (hstarts : ∀ t, starts t = true → starts' t = true) : Begins starts' text where
  skips := h.skips
  token rest hrest := hstarts _ (h.token rest hrest)

/-- The tokens that a part of a list can begin with. -/
def startsPart (t : Token) : Bool := t ≠ .punct "," && t ≠ .punct "]"

/-- In these modes the reader takes a text for a part of a list, where a comma or the closing bracket comes next. -/
structure Rereads (read : Readers) (modes : List Mode) (value : Item → Option Tree) (text : List Char) (t : Tree) : Prop where
  begins : Begins startsPart text
  takes (mode : Mode) (hmode : mode ∈ modes) (s : State) (c : Char) (cs : List Char) (hc : c = ',' ∨ c = ']')
    (hs : At s (text ++ c :: cs)) : ∃ i s', (item read mode).run s = some (i, s') ∧ value i = some t ∧ At s' (c :: cs)

/-- A part is neither a comma nor the closing bracket. -/
theorem Rereads.opens {text : List Char} (h : Rereads read modes value text t) (hc : c = ',' ∨ c = ']')
    (hs : At s (text ++ c :: cs)) : s.token ≠ .punct "]" ∧ s.token ≠ .punct "," := by
  have hstart := h.begins.at (ends_mark hc).delimited hs
  rw [startsPart, Bool.and_eq_true, decide_eq_true_eq, decide_eq_true_eq] at hstart
  exact hstart.symm

theorem arrayElements_none (value : Item → Option Tree) (is : List (Option Item)) :
    arrayElements value (none :: is) = (arrayElements value is).map (none :: ·) := by
  rw [arrayElements, List.mapM_cons, Option.map_eq_bind]
  rfl

theorem arrayElements_some {i : Item} (h : value i = some t) (is : List (Option Item)) :
    arrayElements value (some i :: is) = (arrayElements value is).map (some t :: ·) := by
  rw [arrayElements, List.mapM_cons, Option.map_eq_bind]
  dsimp only
  rw [h]
  rfl

/-! ## Reading a list -/

/-- Parts and holes: for each part its text, and the tree that it is read for. -/
abbrev Parts := List (Option (List Char × Tree))

/-- The text between the brackets around the parts. -/
def Parts.text (ps : Parts) : List Char := listText (ps.map (Option.map Prod.fst))

/-- The trees of the parts. -/
def Parts.trees (ps : Parts) : List (Option Tree) := ps.map (Option.map Prod.snd)

theorem Parts.length_further (ps : Parts) : ps.length ≤ (furtherText (ps.map (Option.map Prod.fst))).length ∧
    ∀ p, some p ∈ ps → p.1.length < (furtherText (ps.map (Option.map Prod.fst))).length := by
  -- Each part counts with the blank in front of it, so that the last one needs no comma.
  induction ps with
  | nil => simp
  | cons p ps ih =>
    obtain ⟨hlength, hparts⟩ := ih
    generalize hos : ps.map (Option.map Prod.fst) = os at hlength hparts
    have htail : (furtherText os).length ≤ (if os.isEmpty then [] else ',' :: furtherText os).length := by
      cases os <;> simp [furtherText]
    have hstep (text : List Char) (htext : listText ((p.map Prod.fst) :: os) = text) (hle : (furtherText os).length ≤ text.length)
        (hp : ∀ q, p = some q → q.1.length ≤ text.length) :
        (p :: ps).length ≤ (furtherText ((p :: ps).map (Option.map Prod.fst))).length ∧
          ∀ q, some q ∈ p :: ps → q.1.length < (furtherText ((p :: ps).map (Option.map Prod.fst))).length := by
      rw [List.map_cons, hos, furtherText, List.isEmpty_cons, if_neg Bool.false_ne_true, htext, List.length_cons, List.length_cons]
      refine ⟨by omega, fun q hq => ?_⟩
      rcases List.mem_cons.1 hq with hq | hq
      · have := hp q hq.symm
        omega
      · have := hparts q hq
        omega
    cases p with
    | none => exact hstep _ (listText_none os) (by simp) nofun
    | some p =>
      refine hstep _ (listText_some p.1 os) (by rw [List.length_append]; omega) ?_
      rintro q ⟨⟩
      rw [List.length_append]
      omega

theorem Parts.length_text (ps : Parts) :
    ps.length ≤ ps.text.length + 1 ∧ ∀ p, some p ∈ ps → p.1.length ≤ ps.text.length := by
  have hfurther (os : List (Option (List Char))) : (furtherText os).length ≤ (listText os).length + 1 := by
    cases os <;> simp [listText, furtherText]
  have hle := hfurther (ps.map (Option.map Prod.fst))
  obtain ⟨hlength, hparts⟩ := ps.length_further
  exact ⟨hlength.trans hle, fun p hp => Nat.le_of_lt_succ ((hparts p hp).trans_le hle)⟩

variable {ps : Parts}

theorem skipsTo_parts (hread : ∀ p, some p ∈ ps → Rereads read modes value p.1 p.2) (rest : List Char) :
    SkipsTo (ps.text ++ ']' :: rest) (ps.text ++ ']' :: rest) := by
  cases ps with
  | nil => exact skipsTo_mark (by decide)
  | cons p ps =>
    cases p with
    | none =>
      rw [Parts.text, List.map_cons, Option.map_none, listText_none]
      exact skipsTo_mark (by decide)
    | some p =>
      rw [Parts.text, List.map_cons, Option.map_some, listText_some, List.append_assoc]
      exact (hread p List.mem_cons_self).begins.skips _

theorem at_further (hread : ∀ p, some p ∈ ps → Rereads read modes value p.1 p.2) (rest : List Char) :
    At (State.ofText true (furtherText (ps.map (Option.map Prod.fst)) ++ ']' :: rest)) (ps.text ++ ']' :: rest) := by
  refine at_ofText ?_ true
  have hskips := skipsTo_parts hread rest
  cases ps with
  | nil => exact hskips
  | cons p ps => exact skipsTo_cons (by decide) hskips

/-- The loop over the items takes each part in its place, and each hole for the comma behind it. -/
theorem itemsUntil_parts (hread : ∀ p, some p ∈ ps → Rereads read [first, later] value p.1 p.2) (hn : ps.length < n)
    (comma : Bool) (acc : List (Option Item)) (hs : At s (ps.text ++ ']' :: rest)) :
    ∃ is trailing, (itemsUntil read first later "]" n comma acc).run s =
        some ((acc.reverse ++ is, trailing), State.ofText false rest) ∧
      arrayElements value is = some ps.trees := by
  -- A comma in front stands for a hole. The one behind a part is taken with it, and what follows is again a whole text.
  induction ps generalizing n comma acc s with
  | nil =>
    obtain ⟨n, rfl⟩ : ∃ m, n = m + 1 := ⟨n - 1, by rw [List.length_nil] at hn; omega⟩
    obtain ⟨htoken, htail⟩ := At.mark hs (by decide)
    refine ⟨[], comma, ?_, rfl⟩
    rw [itemsUntil, run_bind (run_punct?_yes htoken), if_pos rfl, htail, List.append_nil]
    rfl
  | cons p ps ih =>
    obtain ⟨n, rfl⟩ : ∃ m, n = m + 1 := ⟨n - 1, by rw [List.length_cons] at hn; omega⟩
    rw [List.length_cons] at hn
    have hrest : ∀ q, some q ∈ ps → Rereads read [first, later] value q.1 q.2 := fun q hq => hread q (List.mem_cons_of_mem p hq)
    rw [itemsUntil]
    cases p with
    | none =>
      rw [Parts.text, List.map_cons, Option.map_none, listText_none] at hs
      obtain ⟨htoken, htail⟩ := At.mark hs (by decide)
      obtain ⟨is, trailing, hruns, his⟩ := ih hrest (n := n) (by omega) true (none :: acc) (at_further hrest rest)
      refine ⟨none :: is, trailing, ?_, by rw [arrayElements_none, his]; rfl⟩
      rw [run_bind (run_punct?_no (by rw [htoken]; decide)), if_neg Bool.false_ne_true, run_bind (run_punct?_yes htoken),
        if_pos rfl, htail]
      rw [List.reverse_cons, List.append_assoc] at hruns
      exact hruns
    | some p =>
      have hp := hread p List.mem_cons_self
      have hmode : (if acc.isEmpty || acc.length = 1 && acc.all Option.isNone then first else later) ∈ [first, later] := by
        split <;> simp
      rw [Parts.text, List.map_cons, Option.map_some, listText_some, List.append_assoc] at hs
      cases ps with
      | nil =>
        obtain ⟨i, s', hrun, hvalue, hat⟩ := hp.takes _ hmode s ']' rest (.inr rfl) hs
        obtain ⟨hclose, hcomma⟩ := hp.opens (.inr rfl) hs
        obtain ⟨htoken, htail⟩ := hat.mark (by decide)
        refine ⟨[some i], false, ?_, arrayElements_some hvalue []⟩
        rw [run_bind (run_punct?_no hclose), if_neg Bool.false_ne_true, run_bind (run_punct?_no hcomma),
          if_neg Bool.false_ne_true, run_bind hrun, run_bind (run_punct?_no (by rw [htoken]; decide)),
          if_neg Bool.false_ne_true, run_bind (run_punct htoken), htail, List.reverse_cons]
        rfl
      | cons q ps =>
        have hs : At s (p.1 ++ ',' :: (furtherText ((q :: ps).map (Option.map Prod.fst)) ++ ']' :: rest)) := hs
        obtain ⟨i, s', hrun, hvalue, hat⟩ := hp.takes _ hmode s ',' _ (.inl rfl) hs
        obtain ⟨hclose, hcomma⟩ := hp.opens (.inl rfl) hs
        obtain ⟨htoken, htail⟩ := hat.mark (by decide)
        obtain ⟨is, trailing, hruns, his⟩ := ih hrest (n := n) (by omega) true (some i :: acc) (at_further hrest rest)
        refine ⟨some i :: is, trailing, ?_, by rw [arrayElements_some hvalue, his]; rfl⟩
        rw [run_bind (run_punct?_no hclose), if_neg Bool.false_ne_true, run_bind (run_punct?_no hcomma),
          if_neg Bool.false_ne_true, run_bind hrun, run_bind (run_punct?_yes htoken), if_pos rfl, htail]
        rw [List.reverse_cons, List.append_assoc] at hruns
        exact hruns

/-- What brackets around these items can be read as. -/
def arrayReading (is : List (Option Item)) : Reading :=
  .ofBraces ((arrayElements Item.argument? is).map fun es => .mk (.arrayExpression es))
    ((arrayElements Item.element? is).map fun es => .mk (.arrayPattern es))

/-- Brackets around parts are read as an array of them, whatever the parts are read for. -/
theorem list_runs (hread : ∀ p, some p ∈ ps → Rereads read [first, later] value p.1 p.2) (hn : ps.length < n)
    (hs : At s ('[' :: (ps.text ++ ']' :: rest))) :
    ∃ is, (array read n first later).run s = some (arrayReading is, State.ofText false rest) ∧
      arrayElements value is = some ps.trees := by
  obtain ⟨htoken, htail⟩ := hs.mark (by decide)
  have hat := at_ofText (skipsTo_parts hread rest) true
  obtain ⟨is, trailing, hruns, his⟩ := itemsUntil_parts hread hn false [] hat
  refine ⟨is, ?_, his⟩
  rw [array, run_bind (run_punct htoken), htail]
  exact run_bind hruns

/-- No statement ends between brackets. -/
theorem not_ends_of_mem {mode : Mode} (h : mode ∈ [Mode.element, Mode.inner]) : mode.ends = false := by
  rcases List.mem_pair.1 h with rfl | rfl <;> rfl

/-- A list at the place of an operand. -/
theorem primary_list (hread : ∀ p, some p ∈ ps → Rereads read [.element, .inner] value p.1 p.2) (hn : ps.length < n)
    (mode : Mode) (calls : Bool) (hs : At s ('[' :: (ps.text ++ ']' :: rest))) :
    ∃ is, (primary read n mode calls).run s = some (arrayReading is, State.ofText false rest) ∧
      arrayElements value is = some ps.trees := by
  obtain ⟨is, hruns, his⟩ := list_runs hread hn hs
  refine ⟨is, ?_, his⟩
  obtain ⟨htoken, -⟩ := hs.mark (by decide)
  rw [primary, run_bind (run_textAhead s), run_bind (run_peek s), htoken]
  exact hruns

end Graft.Source
