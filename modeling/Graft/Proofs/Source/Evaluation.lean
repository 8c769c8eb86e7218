import Graft.Proofs.Source.Scanning
import Graft.Source.Program
/-!
# Evaluation of readers

What the readers do at a known text: each lemma says that a reader succeeds there, what it gives and where it stops. The
state of a reader is known by the text in front of it (`At`), since nothing here depends on what was read before.
-/

namespace Graft.Source

open Read

variable {α β : Type} {s s' : State} {a : α} {b : β} {cs text rest next : List Char} {c : Char} {p : String} {mode : Mode}

/-! ## Steps -/

theorem run_bind {x : Read α} {f : α → Read β} (h : x.run s = some (a, s')) : (x >>= f).run s = (f a).run s' := by
  rw [StateT.run_bind, h]
  rfl

theorem run_orElse {x y : Read α} (h : x.run s = none) : (x <|> y).run s = y.run s := by
  change (x.run s <|> y.run s) = _
  rw [h]
  rfl

theorem run_peek (s : State) : peek.run s = some (s.token, s) := rfl

theorem run_isPunct (p : String) (s : State) : (isPunct p).run s = some (decide (s.token = .punct p), s) := rfl

theorem run_isWord (w : String) (s : State) : (isWord w).run s = some (decide (s.token = .word w), s) := rfl

theorem run_stops (hmode : mode.ends = false) (s : State) : mode.stops.run s = some (false, s) := by
  rw [Mode.stops, hmode]
  rfl

theorem run_advance (s : State) : advance.run s = some ((), State.ofText (!s.token.endsOperand) s.rest) := rfl

theorem run_markupAhead (s : State) : markupAhead.run s = some ((), State.ofText true s.previous) := rfl

theorem run_textAhead (s : State) : textAhead.run s = some (s.start, s) := rfl

theorem run_guardThat {q : Bool} (h : q = true) (s : State) : (guardThat q).run s = some ((), s) := by
  rw [h]
  rfl

theorem run_require {o : Option α} (h : o = some a) (s : State) : (require o).run s = some (a, s) := by
  rw [h]
  rfl

theorem run_punct (h : s.token = .punct p) :
    (punct p).run s = some ((), State.ofText (!(Token.punct p).endsOperand) s.rest) := by
  rw [punct, run_bind (run_isPunct p s), h, decide_eq_true rfl, if_pos rfl, run_advance, h]

theorem run_punct?_yes (h : s.token = .punct p) :
    (punct? p).run s = some (true, State.ofText (!(Token.punct p).endsOperand) s.rest) := by
  rw [punct?, run_bind (run_isPunct p s), h, decide_eq_true rfl, if_pos rfl, run_bind (run_advance s), h]
  rfl

theorem run_punct?_no (h : s.token ≠ .punct p) : (punct? p).run s = some (false, s) := by
  rw [punct?, run_bind (run_isPunct p s), decide_eq_false h]
  rfl

/-- An item that does not begin with three dots. -/
theorem run_item {read : Readers} {r : Reading} (hdots : s.token ≠ .punct "...")
    (h : (read (.expression mode)).run s = some (r, s')) : (item read mode).run s = some (⟨false, r⟩, s') := by
  rw [item, run_bind (run_punct?_no hdots), run_bind h]
  rfl

/-- What a loop gives that has nothing to take. -/
theorem run_collect_nil {body : Read (Option α)} (h : body.run s = some (none, s')) (n : Nat) :
    (collect body (n + 1) []).run s = some ([], s') := by
  rw [collect, run_bind h]
  rfl

/-! ## Places -/

/-- The reader stands in front of this text. -/
structure At (s : State) (text : List Char) : Prop where
  start : s.start = text
  token : nextToken text = (s.token, s.rest)

theorem at_ofText (h : SkipsTo cs text) (markup : Bool) : At (State.ofText markup cs) text where
  start := h markup
  token := by
    change nextToken text = ((nextToken (skipGap markup cs)).1, (nextToken (skipGap markup cs)).2)
    rw [h markup]

theorem At.token_eq (h : At s text) {t : Token} (ht : nextToken text = (t, rest)) : s.token = t ∧ s.rest = rest := by
  have := h.token.symm.trans ht
  exact ⟨congrArg Prod.fst this, congrArg Prod.snd this⟩

theorem At.mark (h : At s (c :: cs)) (hc : c ∈ marks) : s.token = .punct (String.ofList [c]) ∧ s.rest = cs :=
  h.token_eq (nextToken_mark hc)

/-- The marks that a value can stand in front of. -/
def closers : List String := [",", "]", "\x7d", ")"]

/-- The reader stands in front of a text that begins with a closing mark. -/
structure Closing (s : State) (next : List Char) : Prop extends At s next where
  closes : ∃ p ∈ closers, s.token = .punct p

theorem Closing.token_cases (h : Closing s next) :
    s.token = .punct "," ∨ s.token = .punct "]" ∨ s.token = .punct "\x7d" ∨ s.token = .punct ")" := by
  obtain ⟨p, hp, htoken⟩ := h.closes
  rw [htoken]
  simpa [closers] using hp

/-- An expression that is no open chain is closed as it is. -/
theorem closed?_of_expression {r : Reading} {t : Tree} (hr : r.expression = some t) (hopen : t.isOpenChain = false) :
    r.closed? = some t := by
  rw [Reading.closed?, hr, Option.map_some, Tree.closeChain, hopen]
  rfl

/-! ## Values with nothing behind them -/

variable (read : Readers) (fuel : Nat)

theorem run_questionAhead? (h : Closing s next) (mode : Mode) : mode.questionAhead?.run s = some (none, s) := by
  change some (ite (questionMayFollow mode.ends s.previous) _ none, s) = some (none, s)
  rcases h.token_cases with h | h | h | h <;> simp [h]

theorem operationRest_runs (least n : Nat) (signed : Bool) (hmode : mode.ends = false) (h : Closing s next) (r : Reading) :
    (operationRest read fuel mode least signed (n + 1) r).run s = some (r, s) := by
  rw [operationRest, run_bind (run_stops hmode s), if_neg Bool.false_ne_true]
  cases r.closed? with
  | none => rfl
  | some l =>
    dsimp only
    rw [run_bind (run_questionAhead? h mode), run_bind (run_peek s)]
    rcases h.token_cases with h | h | h | h <;> rw [h] <;> rfl

theorem suffixes_runs (start : List Char) (calls updates : Bool) (n : Nat) (hmode : mode.ends = false) (h : Closing s next)
    (r : Reading) : (suffixes read fuel mode start calls updates (n + 1) r).run s = some (r, s) := by
  rw [suffixes, run_bind (run_stops hmode s), if_neg Bool.false_ne_true, run_bind (run_peek s)]
  rcases h.token_cases with h | h | h | h <;> rw [h] <;> rfl

theorem assigned_runs (hmode : mode.ends = false) (h : Closing s next) (r : Reading) :
    (assigned read mode r).run s = some (r, s) := by
  rw [assigned, run_bind (run_stops hmode s), Bool.and_false, if_neg Bool.false_ne_true, run_bind (run_peek s)]
  cases r.target <;> rcases h.token_cases with h | h | h | h <;> rw [h] <;> rfl

/-- The tokens that an operand of data begins with. -/
def startsData : Token → Bool
  | .word w => w = "null" || w = "true" || w = "false"
  | .number _ | .string _ => true
  | .punct p => p = "[" || p = "\x7b"
  | _ => false

/-- An operand with nothing behind it is assigned nothing. -/
theorem assignedOperand_runs {n : Nat} (hmode : mode.ends = false) (hnew : s.token ≠ .word "new") {r : Reading}
    (hp : (primary read (n + 1) mode true).run s = some (r, s')) (h : Closing s' next) :
    ((operand read (n + 1) mode true) >>= assigned read mode).run s = some (r, s') := by
  have hoperand : (operand read (n + 1) mode true).run s = some (r, s') := by
    rw [operand, run_bind (run_textAhead s), run_bind (run_isWord "new" s), decide_eq_false hnew, if_neg Bool.false_ne_true,
      run_bind hp, suffixes_runs read (n + 1) s.start true true n hmode h]
  rw [run_bind hoperand, assigned_runs read hmode h]

/-- An operand with nothing behind it is a whole unary operation. -/
theorem unary_runs {n : Nat} (hmode : mode.ends = false) (hs : startsData s.token = true) {r : Reading}
    (hp : (primary read (n + 1) mode true).run s = some (r, s')) (h : Closing s' next) :
    (unary read (n + 1) mode).run s = some (r, s') := by
  have hassigned : ((operand read (n + 1) mode true) >>= assigned read mode).run s = some (r, s') := by
    refine assignedOperand_runs read hmode (fun htoken => ?_) hp h
    rw [htoken] at hs
    exact absurd hs (by decide)
  rw [unary, run_bind (run_peek s)]
  -- No token of data is an operator, so the operand is read at once.
  cases htoken : s.token with
  | number raw => exact hassigned
  | string raw => exact hassigned
  | word w =>
    rw [htoken, startsData, Bool.or_eq_true, Bool.or_eq_true, decide_eq_true_eq, decide_eq_true_eq, decide_eq_true_eq] at hs
    rcases hs with (rfl | rfl) | rfl <;> exact hassigned
  | punct p =>
    rw [htoken, startsData, Bool.or_eq_true, decide_eq_true_eq, decide_eq_true_eq] at hs
    rcases hs with rfl | rfl <;> exact hassigned
  | _ =>
    rw [htoken] at hs
    cases hs

theorem namedOperation_fails (hmode : mode.ends = false) (pass : Read Unit) (more : Reading → Read Reading) (s : State) :
    (namedOperation read fuel mode pass more).run s = none := by
  rw [namedOperation, hmode]
  rfl

theorem guarded_fails {x : Read α} (h : x.run s = none) (q : Bool) : (guardThat q >>= fun _ => x).run s = none := by
  cases q with
  | false => rfl
  | true => rwa [run_bind (run_guardThat rfl s)]

/-- A unary operation with nothing behind it is a whole operation. -/
theorem operation_runs {n : Nat} (least : Nat) (hmode : mode.ends = false) {r : Reading}
    (hu : (unary read (n + 1) mode).run s = some (r, s')) (h : Closing s' next) :
    (operation read (n + 1) mode least).run s = some (r, s') := by
  rw [operation, run_bind (run_peek s), run_bind (run_peek s)]
  dsimp only
  rw [run_orElse (guarded_fails (namedOperation_fails read (n + 1) hmode _ _ s) _),
    run_orElse (guarded_fails (guarded_fails (namedOperation_fails read (n + 1) hmode _ _ s) _) _), run_bind hu,
    operationRest_runs read (n + 1) least n (isSigned r) hmode h]

/-! ## Values in front of a closing mark -/

/-- A text that a value can stand in front of: a delimiter, and a closing mark after blanks. -/
structure Ends (rest next : List Char) : Prop where
  delimited : Delimited rest
  skips : SkipsTo rest next
  closes : ∃ c cs, next = c :: cs ∧ c ∈ [',', ']', '\x7d', ')']

theorem Ends.closing (h : Ends rest next) (markup : Bool) : Closing (State.ofText markup rest) next := by
  have hat := at_ofText h.skips markup
  obtain ⟨c, cs, rfl, hc⟩ := h.closes
  have hmarks : ([',', ']', '\x7d', ')'].all fun c => c ∈ marks && String.ofList [c] ∈ closers) = true := by decide
  have hmark := List.all_eq_true.1 hmarks c hc
  rw [Bool.and_eq_true, decide_eq_true_eq, decide_eq_true_eq] at hmark
  exact ⟨hat, String.ofList [c], hmark.2, (hat.token_eq (nextToken_mark hmark.1)).1⟩

theorem ends_mark (hc : c = ',' ∨ c = ']') : Ends (c :: cs) (c :: cs) := by
  refine ⟨⟨c, cs, rfl, ?_⟩, skipsTo_mark ?_, c, cs, rfl, ?_⟩ <;> rcases hc with rfl | rfl <;> decide

/-- The reader takes this text for an expression wherever a value can end behind it. -/
def Takes (read : Read Reading) (text : List Char) (t : Tree) : Prop :=
  ∀ s rest next, At s (text ++ rest) → Ends rest next →
    ∃ r s', read.run s = some (r, s') ∧ r.expression = some t ∧ Closing s' next

/-- The tokens that a value begins with. -/
def startsValue (t : Token) : Bool := startsData t || t = .punct "-"

/-- How the text of a value begins. -/
structure Begins (starts : Token → Bool) (text : List Char) : Prop where
  skips (rest : List Char) : SkipsTo (text ++ rest) (text ++ rest)
  token (rest : List Char) (h : Delimited rest) : starts (nextToken (text ++ rest)).1 = true

variable {read fuel} {t : Tree} {n : Nat} {d : Decimal} {w : List Char}

theorem Begins.value (h : Begins startsData text) : Begins startsValue text where
  skips := h.skips
  token rest hrest := by rw [startsValue, h.token rest hrest, Bool.true_or]

theorem begins_mark {starts : Token → Bool} (hc : c ∈ marks) (h : starts (.punct (String.ofList [c])) = true) (cs : List Char) :
    Begins starts (c :: cs) where
  skips rest := skipsTo_mark hc
  token rest _ := by
    rw [List.cons_append, nextToken_mark hc]
    exact h

theorem Begins.at {starts : Token → Bool} (h : Begins starts text) (hrest : Delimited rest) (hs : At s (text ++ rest)) :
    starts s.token = true := by
  have := h.token rest hrest
  rwa [hs.token] at this

theorem Takes.unary (hmode : mode.ends = false) (hb : Begins startsData text)
    (h : Takes (primary read (n + 1) mode true) text t) : Takes (unary read (n + 1) mode) text t := by
  intro s rest next hs hrest
  obtain ⟨r, s', hrun, hr, hclosing⟩ := h s rest next hs hrest
  exact ⟨r, s', unary_runs read hmode (hb.at hrest.delimited hs) hrun hclosing, hr, hclosing⟩

theorem Takes.operation (hmode : mode.ends = false) (least : Nat) (h : Takes (Source.unary read (n + 1) mode) text t) :
    Takes (Source.operation read (n + 1) mode least) text t := by
  intro s rest next hs hrest
  obtain ⟨r, s', hrun, hr, hclosing⟩ := h s rest next hs hrest
  exact ⟨r, s', operation_runs read least hmode hrun hclosing, hr, hclosing⟩

/-! ## Literals -/

theorem begins_numeral (hd : d.WellFormed) : Begins startsData d.text where
  skips rest := by
    obtain ⟨c, cs, htext, hc⟩ := Decimal.head_digit hd
    rw [htext]
    exact skipsTo_digit hc
  token rest hrest := by
    rw [nextToken_numeral hd hrest]
    rfl

theorem begins_quote (text : String) : Begins startsData (Json.quote text).toList where
  skips rest := skipsTo_quote text
  token rest _ := by
    rw [nextToken_quote]
    rfl

theorem begins_minus (hd : d.WellFormed) : Begins startsValue ('-' :: d.text) := by
  obtain ⟨c, cs, htext, hc⟩ := Decimal.head_digit hd
  rw [htext]
  refine ⟨fun rest => skipsTo_minus hc, fun rest _ => ?_⟩
  rw [List.cons_append, List.cons_append, nextToken_minus hc]
  rfl

theorem takes_numeral (hd : d.WellFormed) (mode : Mode) (calls : Bool) :
    Takes (primary read fuel mode calls) d.text (numberTree (String.ofList d.text)) := by
  intro s rest next hs hrest
  obtain ⟨htoken, htail⟩ := hs.token_eq (nextToken_numeral hd hrest.delimited)
  refine ⟨.ofExpression (numberTree (String.ofList d.text)) .primary, State.ofText false rest, ?_, rfl, hrest.closing false⟩
  rw [primary, run_bind (run_textAhead s), run_bind (run_peek s), htoken]
  dsimp only
  rw [run_bind (run_advance s), htoken, htail]
  rfl

theorem takes_quote (text : String) (mode : Mode) (calls : Bool) :
    Takes (primary read fuel mode calls) (Json.quote text).toList (stringTree (Json.quote text)) := by
  intro s rest next hs hrest
  obtain ⟨htoken, htail⟩ := hs.token_eq (nextToken_quote text rest)
  refine ⟨.ofExpression (stringTree (Json.quote text)) .primary, State.ofText false rest, ?_, rfl, hrest.closing false⟩
  rw [primary, run_bind (run_textAhead s), run_bind (run_peek s), htoken]
  dsimp only
  rw [run_bind (run_advance s), htoken, htail]
  rfl

/-- The words that stand for a constant. -/
def constants : List (String × LiteralValue) := [("null", .null), ("true", .boolean true), ("false", .boolean false)]

theorem constants_isWord {value : LiteralValue} {word : String} (hword : (word, value) ∈ constants) :
    IsWord word.toList ∧ startsData (.word word) = true := by
  simp only [constants, List.mem_cons, List.not_mem_nil, or_false, Prod.mk.injEq] at hword
  rcases hword with ⟨rfl, -⟩ | ⟨rfl, -⟩ | ⟨rfl, -⟩ <;>
    exact ⟨⟨by decide, by rintro _ ⟨⟩; decide, List.all_eq_true.1 (by decide)⟩, by decide⟩

theorem begins_constant {value : LiteralValue} {word : String} (hword : (word, value) ∈ constants) :
    Begins startsData word.toList where
  skips rest := skipsTo_word (constants_isWord hword).1
  token rest hrest := by
    rw [nextToken_word (constants_isWord hword).1 hrest, String.ofList_toList]
    exact (constants_isWord hword).2

theorem takes_constant {value : LiteralValue} {word : String} (hword : (word, value) ∈ constants) (mode : Mode) (calls : Bool) :
    Takes (primary read fuel mode calls) word.toList (.mk (.literal value word)) := by
  intro s rest next hs hrest
  obtain ⟨hw, -⟩ := constants_isWord hword
  obtain ⟨htoken, htail⟩ := hs.token_eq (nextToken_word hw hrest.delimited)
  rw [String.ofList_toList] at htoken
  have hrun : (wordOperand read fuel mode calls word).run s =
      some (.ofExpression (.mk (.literal value word)) .primary, State.ofText (!s.token.endsOperand) s.rest) := by
    simp only [constants, List.mem_cons, List.not_mem_nil, or_false, Prod.mk.injEq] at hword
    rcases hword with ⟨rfl, rfl⟩ | ⟨rfl, rfl⟩ | ⟨rfl, rfl⟩ <;> rfl
  refine ⟨.ofExpression (.mk (.literal value word)) .primary, _, ?_, rfl, hrest.closing (!s.token.endsOperand)⟩
  rw [primary, run_bind (run_textAhead s), run_bind (run_peek s)]
  rw [htail] at hrun
  rw [← hrun, htoken]

/-- A minus sign before an operand. -/
theorem takes_minus (hd : d.WellFormed) (hopen : t.isOpenChain = false)
    (h : Takes (read (.unary mode.behind)) d.text t) :
    Takes (Source.unary read fuel mode) ('-' :: d.text) (.mk (.unaryExpression "-" t)) := by
  intro s rest next hs hrest
  obtain ⟨c, cs, htext, hc⟩ := Decimal.head_digit hd
  have hminus : nextToken ('-' :: (d.text ++ rest)) = (.punct "-", d.text ++ rest) := by
    rw [htext, List.cons_append, nextToken_minus hc]
  obtain ⟨htoken, htail⟩ := hs.token_eq hminus
  obtain ⟨r, s', hrun, hr, hclosing⟩ := h (State.ofText true (d.text ++ rest)) rest next
    (at_ofText ((begins_numeral hd).skips rest) true) hrest
  refine ⟨.ofExpression (.mk (.unaryExpression "-" t)) .other, s', ?_, rfl, hclosing⟩
  have hclosed : r.closed? = some t := closed?_of_expression hr hopen
  rw [Source.unary, run_bind (run_peek s), htoken]
  change (do
    advance
    let e ← require (← read (.unary mode.behind)).closed?
    return Reading.ofExpression (.mk (.unaryExpression "-" e)) .other : Read Reading).run s = _
  rw [run_bind (run_advance s), htoken, htail]
  change (do
    let e ← require (← read (.unary mode.behind)).closed?
    return Reading.ofExpression (.mk (.unaryExpression "-" e)) .other : Read Reading).run (State.ofText true (d.text ++ rest)) = _
  rw [run_bind hrun, run_bind (run_require hclosed s')]
  rfl

/-! ## Whole texts -/

theorem toList_wrapped (text : String) : (wrapped text).toList = '(' :: (text.toList ++ ['\n', ')']) := by
  rw [wrapped, String.toList_append, String.toList_append]
  rfl

theorem ends_wrapped : Ends ['\n', ')'] [')'] :=
  ⟨⟨'\n', [')'], rfl, by decide⟩, skipsTo_cons (by decide) (skipsTo_mark (by decide)), ')', [], rfl, by decide⟩

/-- An expression in front of the closing parenthesis is the only one there. -/
theorem expressions_runs (n : Nat) (h : Takes (read (.expression .element)) text t) (hopen : t.isOpenChain = false)
    (hs : At s (text ++ ['\n', ')'])) :
    ∃ s', (expressions read (n + 1) .element).run s = some (t, s') ∧ s'.token = .punct ")" ∧ s'.rest = [] := by
  obtain ⟨r, s', hrun, hr, hclosing⟩ := h s _ _ hs ends_wrapped
  obtain ⟨hclose, hbehind⟩ := hclosing.mark (by decide)
  have hfirst : (expressionTree read .element).run s = some (t, s') := by
    rw [expressionTree, run_bind hrun, run_require (closed?_of_expression hr hopen)]
  refine ⟨s', ?_, hclose, hbehind⟩
  rw [expressions, run_bind hfirst, run_bind (run_collect_nil (?_ : StateT.run _ _ = some (none, s')) n)]
  · rfl
  · rw [run_bind (run_stops rfl s'), if_neg Bool.false_ne_true, run_bind (run_punct?_no (by rw [hclose]; decide))]
    rfl

/-- An expression in parentheses is the whole one. -/
theorem wholeExpression_runs {sense : AwaitSense} {text : String}
    (hskips : SkipsTo (text.toList ++ ['\n', ')']) (text.toList ++ ['\n', ')']))
    (h : Takes (readers sense (n + 1) (.expression .element)) text.toList t) (hopen : t.isOpenChain = false) :
    (wholeExpression sense (n + 1)).run (State.ofText true (wrapped text).toList) = some (t, State.ofText false []) := by
  rw [toList_wrapped]
  obtain ⟨hleft, htail⟩ := (at_ofText (@skipsTo_mark (text.toList ++ ['\n', ')']) '(' (by decide)) true).mark (by decide)
  obtain ⟨s', hexpressions, hclose, hbehind⟩ := expressions_runs n h hopen (at_ofText hskips true)
  rw [wholeExpression, run_bind (run_punct hleft), htail]
  change (expressions (readers sense (n + 1)) (n + 1) .element >>= _).run (State.ofText true (text.toList ++ ['\n', ')'])) = _
  rw [run_bind hexpressions, run_bind (run_punct hclose), hbehind]
  rfl

/-- A text is read as a single expression if as many steps as it is long are enough to take it. -/
theorem readExpression_runs {text : String} (hskips : SkipsTo (text.toList ++ ['\n', ')']) (text.toList ++ ['\n', ')']))
    (h : ∀ n, text.toList.length ≤ n → Takes (readers .byContext (n + 1) (.expression .element)) text.toList t)
    (hopen : t.isOpenChain = false) : readExpression text = .ok t := by
  have hlength : text.toList.length ≤ 4 * (wrapped text).toList.length + 15 := by
    rw [toList_wrapped, List.length_cons, List.length_append]
    omega
  have hrun := wholeExpression_runs hskips (h _ hlength) hopen
  rw [readExpression, run]
  dsimp only
  rw [show steps (wrapped text).toList = 4 * (wrapped text).toList.length + 15 + 1 from rfl, hrun]
  rfl

end Graft.Source
