import Graft.Proofs.Print.Lexing
import Graft.Proofs.Source.Listing
/-!
# Elements and holes

An array is printed as a list between brackets and read as one, so its elements and holes are found again if each element is
(`array_reread`). Elements that need no more than this are names, and arrays of such in turn: their text is read as the same tree
(`readExpression_sparse`).
-/

namespace Graft.Source

open Read Graft.Tree Lexical

/-- The two things that an array can be: a literal, and a pattern. -/
inductive ArrayKind where
  | literal
  | pattern

namespace ArrayKind

def tree : ArrayKind → List (Option Tree) → Tree
  | literal, es => .mk (.arrayExpression es)
  | pattern, es => .mk (.arrayPattern es)

/-- What an operand is read as. -/
def operand? : ArrayKind → Reading → Option Tree
  | literal => Reading.expression
  | pattern => Reading.pattern

/-- What an element is read as. -/
def element? : ArrayKind → Item → Option Tree
  | literal => Item.argument?
  | pattern => Item.element?

end ArrayKind

variable {read : Readers} {kind : ArrayKind} {fuel n : Nat} {mode first later : Mode} {s : State} {t : Tree}
  {es : List (Option Tree)} {c : PrintContext} {rest next : List Char} {w : String}

/-! ## Printing -/

/-- The text of an element. -/
def elementText (e : Tree) (c : PrintContext) : List Char := chars (asOperand e (pieces e) Level.assign c)

/-- The elements as parts of a list. -/
def elementParts (es : List (Option Tree)) (c : PrintContext) : Parts := es.map (Option.map fun e => (elementText e c, e))

theorem isLastHole_cons (o o' : Option Tree) (es : List (Option Tree)) : isLastHole (o :: o' :: es) = isLastHole (o' :: es) := by
  cases o <;> rfl

theorem text_elementParts (es : List (Option Tree)) (c : PrintContext) :
    (elementParts es c).text = chars (slots es c ++ optionally (isLastHole es) [.mark ","]) := by
  -- The last part has no comma behind it when it is printed, and a last hole gets one afterwards: each is a case of its own.
  induction es with
  | nil => rfl
  | cons o es ih =>
    cases es with
    | nil => cases o <;> simp [elementParts, elementText, Parts.text, listText, slots, isLastHole, optionally]
    | cons o' es =>
      rw [chars_append] at ih
      cases o with
      | none =>
        change ',' :: ' ' :: (elementParts (o' :: es) c).text = _
        rw [ih, slots, isLastHole_cons]
        · simp
        · exact List.cons_ne_nil o' es
      | some e =>
        change elementText e c ++ ',' :: ' ' :: (elementParts (o' :: es) c).text = _
        rw [ih, slots, isLastHole_cons]
        · simp [elementText]
        · exact List.cons_ne_nil o' es

theorem trees_elementParts (es : List (Option Tree)) (c : PrintContext) : (elementParts es c).trees = es := by
  rw [Parts.trees, elementParts, List.map_map]
  refine List.map_id'' (fun o => ?_) es
  cases o <;> rfl

theorem chars_array (kind : ArrayKind) (es : List (Option Tree)) (c : PrintContext) :
    chars (pieces (kind.tree es) c) = '[' :: ((elementParts es c).text ++ [']']) := by
  have htext : chars (.mark "[" :: slots es c ++ optionally (isLastHole es) [.mark ","] ++ [.mark "]"]) =
      '[' :: ((elementParts es c).text ++ [']']) := by
    simp [text_elementParts]
  cases kind <;> exact htext

/-! ## Reading -/

theorem elementParts_rereads {modes : List Mode} {value : Item → Option Tree}
    (hread : ∀ e, some e ∈ es → Rereads read modes value (elementText e c) e) :
    ∀ p, some p ∈ elementParts es c → Rereads read modes value p.1 p.2 := by
  intro p hp
  obtain ⟨o, ho, hp⟩ := List.mem_map.1 hp
  obtain ⟨e, rfl, rfl⟩ := Option.map_eq_some_iff.1 hp
  exact hread e ho

theorem operand?_arrayReading {is : List (Option Item)} (h : arrayElements kind.element? is = some (elementParts es c).trees) :
    kind.operand? (arrayReading is) = some (kind.tree es) := by
  rw [trees_elementParts] at h
  cases kind with
  | literal => exact congrArg (Option.map _) h
  | pattern => exact congrArg (Option.map _) h

/-! ## Names -/

/-- A word that is a name wherever a value can stand. -/
structure IsPlainName (w : String) : Prop where
  word : IsWord w.toList
  free : isReserved w = false
  plain : w ∉ ["await", "yield", "async"]

theorem IsPlainName.ne (hw : IsPlainName w) (word : String)
    (h : (isReserved word || ["await", "yield", "async"].contains word) = true) : w ≠ word := by
  rintro rfl
  rw [hw.free, Bool.false_or, List.contains_iff_mem] at h
  exact hw.plain h

/-- No operator is a name, so a name with nothing behind it is a whole unary operation. -/
theorem unary_name (hw : IsPlainName w) (hmode : mode.ends = false) (htoken : s.token = .word w) {r : Reading} {s' : State}
    (hp : (primary read (n + 1) mode true).run s = some (r, s')) (h : Closing s' next) :
    (unary read (n + 1) mode).run s = some (r, s') := by
  have hnew : s.token ≠ .word "new" := by
    rw [htoken, Ne, Token.word.injEq]
    exact hw.ne "new" (by decide)
  have hassigned := assignedOperand_runs read hmode hnew hp h
  have hoperator : unaryOperator? (.word w) = none := by
    simp [unaryOperator?, hw.ne "typeof" (by decide), hw.ne "void" (by decide),
      hw.ne "delete" (by decide)]
  rw [unary, run_bind (run_peek s), htoken]
  split
  next hpunct => cases hpunct
  next hpunct => cases hpunct
  next hword =>
    cases hword
    exact absurd rfl (hw.ne "await" (by decide))
  next hword =>
    cases hword
    exact absurd rfl (hw.ne "yield" (by decide))
  next hname => cases hname
  next =>
    rw [hoperator]
    exact hassigned

theorem wordOperand_name (hw : IsPlainName w) (mode : Mode) (calls : Bool) :
    (wordOperand read fuel mode calls w).run s = (nameOperand read fuel mode w).run s := by
  rw [wordOperand.eq_def]
  dsimp only
  split
  case h_10 =>
    refine run_bind (run_guardThat ?_ s)
    simp [hw.free, hw.ne "yield" (by decide)]
  all_goals exact absurd rfl (hw.ne _ (by decide))

/-- A name is read as an expression and as a pattern. -/
theorem primary_name (hw : IsPlainName w) (hmode : mode.ends = false) (calls : Bool)
    (hs : At s (w.toList ++ rest)) (hrest : Ends rest next) :
    ∃ r s', (primary read fuel mode calls).run s = some (r, s') ∧ r.expression = some (identifierTree w) ∧
      r.pattern = some (identifierTree w) ∧ Closing s' next := by
  obtain ⟨htoken, htail⟩ := hs.token_eq (nextToken_word hw.word hrest.delimited)
  rw [String.ofList_toList] at htoken
  have hclosing := hrest.closing (!s.token.endsOperand)
  have harrow : (State.ofText (!s.token.endsOperand) rest).token ≠ .punct "=>" := by
    rcases hclosing.token_cases with h | h | h | h <;> rw [h] <;> decide
  have hname : ∃ r, (nameOperand read fuel mode w).run s = some (r, State.ofText (!s.token.endsOperand) rest) ∧
      r.expression = some (identifierTree w) ∧ r.pattern = some (identifierTree w) := by
    rw [nameOperand, run_bind (run_advance s), htail]
    dsimp only
    split
    next => exact ⟨_, rfl, rfl, rfl⟩
    next =>
      rw [run_bind (run_stops hmode _), run_bind (run_isPunct _ _), decide_eq_false harrow]
      exact ⟨_, rfl, rfl, rfl⟩
  obtain ⟨r, hrun, hexpression, hpattern⟩ := hname
  refine ⟨r, _, ?_, hexpression, hpattern, hclosing⟩
  rw [primary, run_bind (run_textAhead s), run_bind (run_peek s), htoken]
  dsimp only
  rw [wordOperand_name hw, ← htoken, hrun]

/-! ## Arrays of names -/

/-- A name, or an array of names and holes and of further such arrays. -/
inductive Sparse (kind : ArrayKind) : Tree → Prop
  | name (w : String) (hw : IsPlainName w) : Sparse kind (identifierTree w)
  | array (es : List (Option Tree)) (h : ∀ e, some e ∈ es → Sparse kind e) : Sparse kind (kind.tree es)

theorem Sparse.not_isOpenChain (h : Sparse kind t) : t.isOpenChain = false := by
  cases h with
  | name => rfl
  | array => cases kind <;> rfl

theorem Sparse.elementText_eq (h : Sparse kind t) (c : PrintContext) : elementText t c = chars (pieces t c) := by
  have hbare (hlevel : t.level = Level.primary) (hin : t.node.isBareIn = false) : elementText t c = chars (pieces t c) := by
    rw [elementText, asOperand, hlevel, hin, Bool.and_false]
    rfl
  cases h with
  | name => exact hbare rfl rfl
  | array => cases kind <;> exact hbare rfl rfl

/-- The tokens that such a tree begins with. -/
def startsSparse : Token → Bool
  | .word _ => true
  | .punct p => p = "["
  | _ => false

/-- The reader takes a text for a tree of this kind wherever a value can end behind it. -/
structure ReadsAs (kind : ArrayKind) (read : Readers) (text : List Char) (t : Tree) : Prop where
  begins : Begins startsSparse text
  takes (mode : Mode) (hmode : mode.ends = false) (s : State) (rest next : List Char) (hs : At s (text ++ rest))
    (hrest : Ends rest next) : ∃ r s', (read (.expression mode)).run s = some (r, s') ∧ kind.operand? r = some t ∧ Closing s' next

theorem ReadsAs.rereads {text : List Char} (h : ReadsAs kind read text t) (hopen : t.isOpenChain = false) :
    Rereads read [.element, .inner] kind.element? text t where
  begins := h.begins.mono fun token htoken => by
    rw [startsPart, Bool.and_eq_true, decide_eq_true_eq, decide_eq_true_eq]
    constructor <;> rintro rfl <;> exact absurd htoken (by decide)
  takes mode hmode s ch cs hch hs := by
    have hbehind : Ends (ch :: cs) (ch :: cs) := ends_mark hch
    have hstart := h.begins.at hbehind.delimited hs
    have hdots : s.token ≠ .punct "..." := by
      intro htoken
      rw [htoken] at hstart
      exact absurd hstart (by decide)
    obtain ⟨r, s', hrun, hr, hclosing⟩ := h.takes mode (not_ends_of_mem hmode) s _ _ hs hbehind
    refine ⟨⟨false, r⟩, s', run_item hdots hrun, ?_, hclosing.toAt⟩
    cases kind with
    | literal => exact closed?_of_expression hr hopen
    | pattern =>
      change r.pattern.orElse _ = some t
      rw [show r.pattern = some t from hr]
      rfl

/-- With as many steps as its text is long, such a tree is read. -/
theorem Sparse.readsAs {sense : AwaitSense} (h : Sparse kind t) (hn : (chars (pieces t c)).length ≤ n) :
    ReadsAs kind (readers sense (n + 1)) (chars (pieces t c)) t := by
  -- On the tree: an element is shorter than the array, so one step fewer is enough for it.
  induction h generalizing n with
  | name w hw =>
    have htext : chars (pieces (identifierTree w) c) = w.toList := List.append_nil _
    have hpos : 0 < w.toList.length := List.length_pos_iff.2 hw.word.nonempty
    rw [htext] at hn ⊢
    obtain ⟨n, rfl⟩ : ∃ m, n = m + 1 := ⟨n - 1, by omega⟩
    refine ⟨⟨fun rest => skipsTo_word hw.word, fun rest hrest => ?_⟩, fun mode hmode s rest next hs hrest => ?_⟩
    · rw [nextToken_word hw.word hrest]
      rfl
    · obtain ⟨r, s', hrun, hexpression, hpattern, hclosing⟩ :=
        @primary_name (readers sense (n + 1)) (n + 1) _ _ _ _ _ hw hmode true hs hrest
      obtain ⟨htoken, -⟩ := hs.token_eq (nextToken_word hw.word hrest.delimited)
      rw [String.ofList_toList] at htoken
      refine ⟨r, s', operation_runs _ 1 hmode (unary_name hw hmode htoken hrun hclosing) hclosing, ?_, hclosing⟩
      cases kind with
      | literal => exact hexpression
      | pattern => exact hpattern
  | array es h ih =>
    obtain ⟨hlength, hparts⟩ := (elementParts es c).length_text
    rw [chars_array] at hn ⊢
    rw [List.length_cons, List.length_append, List.length_singleton] at hn
    obtain ⟨n, rfl⟩ : ∃ m, n = m + 1 := ⟨n - 1, by omega⟩
    have hread (e : Tree) (he : some e ∈ es) :
        Rereads (readers sense (n + 1)) [.element, .inner] kind.element? (elementText e c) e := by
      have hle : (elementText e c).length ≤ _ := hparts (elementText e c, e) (List.mem_map.2 ⟨some e, he, rfl⟩)
      rw [(h e he).elementText_eq] at hle ⊢
      exact (ih e he (by omega)).rereads (h e he).not_isOpenChain
    refine ⟨begins_mark (by decide) (by decide) _, fun mode hmode s rest next hs hrest => ?_⟩
    rw [List.cons_append, List.append_assoc, List.singleton_append] at hs
    have hfuel : (elementParts es c).length < n + 1 := by omega
    obtain ⟨is, hrun, his⟩ := primary_list (elementParts_rereads hread) hfuel mode true hs
    have hdata : startsData s.token = true := by
      rw [(hs.mark (by decide)).1]
      rfl
    have hclosing := hrest.closing false
    exact ⟨_, _, operation_runs _ 1 hmode (unary_runs _ hmode hdata hrun hclosing) hclosing, operand?_arrayReading his, hclosing⟩

/-- The text of an array of names and holes is read as the same tree. -/
theorem readExpression_sparse (h : Sparse .literal t) : readExpression (print t) = .ok t := by
  have htext : (print t).toList = chars (pieces t {}) := toList_join _
  have hreads {n : Nat} (hn : (chars (pieces t {})).length ≤ n) : ReadsAs .literal (readers .byContext (n + 1)) _ t := h.readsAs hn
  refine readExpression_runs ?_ (fun n hn => ?_) h.not_isOpenChain
  · rw [htext]
    exact (hreads le_rfl).begins.skips _
  · rw [htext] at hn ⊢
    exact (hreads hn).takes .element rfl

/-! ## Arrays of anything -/

/-- The printed text of an array, as a literal or as a pattern, is read as the array with the same elements and holes, if its
elements are each read again. -/
theorem array_reread (kind : ArrayKind) (hread : ∀ e, some e ∈ es → Rereads read [first, later] kind.element? (elementText e c) e)
    (hn : es.length < fuel) (hs : At s (chars (pieces (kind.tree es) c) ++ rest)) :
    ∃ r, (array read fuel first later).run s = some (r, State.ofText false rest) ∧ kind.operand? r = some (kind.tree es) := by
  have hlength : (elementParts es c).length < fuel := by rwa [elementParts, List.length_map]
  rw [chars_array, List.cons_append, List.append_assoc, List.singleton_append] at hs
  obtain ⟨is, hruns, his⟩ := list_runs (elementParts_rereads hread) hlength hs
  exact ⟨arrayReading is, hruns, operand?_arrayReading his⟩

/-- Holes at the start, inside and at the end. -/
theorem sparseNames_reread :
    (∃ r, (array (readers .byContext 2) 6 .element .inner).run (State.ofText true "[, a, , b, ,]".toList) =
        some (r, State.ofText false []) ∧
      r.expression = some (.mk (.arrayExpression [none, some (identifierTree "a"), none, some (identifierTree "b"), none]))) ∧
    (∃ r, (array (readers .byContext 2) 6 .element .inner).run (State.ofText true "[, a, , b, ,]".toList) =
        some (r, State.ofText false []) ∧
      r.pattern = some (.mk (.arrayPattern [none, some (identifierTree "a"), none, some (identifierTree "b"), none]))) := by
  have hread (kind : ArrayKind) (e : Tree)
      (he : some e ∈ [none, some (identifierTree "a"), none, some (identifierTree "b"), none]) :
      Rereads (readers .byContext 2) [.element, .inner] kind.element? (elementText e {}) e := by
    simp only [List.mem_cons, List.not_mem_nil, reduceCtorEq, Option.some.injEq, false_or, or_false] at he
    have hname (w : String) (hw : IsPlainName w) (hlength : w.toList.length ≤ 1) :
        Rereads (readers .byContext 2) [.element, .inner] kind.element? (elementText (identifierTree w) {}) (identifierTree w) := by
      have hsparse : Sparse kind (identifierTree w) := .name w hw
      rw [hsparse.elementText_eq]
      refine (hsparse.readsAs ?_).rereads rfl
      rwa [show chars (pieces (identifierTree w) {}) = w.toList from List.append_nil _]
    rcases he with rfl | rfl
    · exact hname "a" ⟨⟨by decide, by rintro _ ⟨⟩; decide, List.all_eq_true.1 (by decide)⟩, by decide, by decide⟩ (by decide)
    · exact hname "b" ⟨⟨by decide, by rintro _ ⟨⟩; decide, List.all_eq_true.1 (by decide)⟩, by decide, by decide⟩ (by decide)
  have hat : At (State.ofText true "[, a, , b, ,]".toList) ("[, a, , b, ,]".toList ++ []) := ⟨rfl, rfl⟩
  exact ⟨array_reread .literal (hread .literal) (by decide) hat, array_reread .pattern (hread .pattern) (by decide) hat⟩

end Graft.Source
