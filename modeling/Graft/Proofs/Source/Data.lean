import Graft.Proofs.Source.Listing
/-!
# Data as source

The expression that `ofJson` writes for a JSON value is read as the tree of that value, `Json.tree` (`readExpression_tree`).
-/

namespace Graft
namespace Json

/-! ## Values and their trees -/

/-- A value that JSON has: the integers fit 64 bits, the doubles are finite, and no key is twice in an object. -/
inductive Proper : Json → Prop
  | null : Proper .null
  | bool (b : Bool) : Proper (.bool b)
  | int (n : Int) (h : fitsInteger n = true) : Proper (.int n)
  | double (x : Double) (h : x.isFinite = true) : Proper (.double x)
  | string (s : String) : Proper (.string s)
  | array (items : List Json) (h : ∀ j ∈ items, Proper j) : Proper (.array items)
  | object (members : List (String × Json)) (h : ∀ m ∈ members, Proper m.2) (keys : (members.map Prod.fst).Nodup) :
    Proper (.object members)

/-- The tree of a number's text: a numeral, or one behind a minus sign. -/
def signedTree : List Char → Tree
  | '-' :: numeral => .mk (.unaryExpression "-" (Source.numberTree (String.ofList numeral)))
  | numeral => Source.numberTree (String.ofList numeral)

/-- The key of a member as it is read. -/
def key (name : String) : Source.Key :=
  if Source.isIdentifierName name then .named name else .other (Source.stringTree (quote name))

mutual
/-- The tree of a value's text. -/
def tree : Json → Tree
  | .null => .mk (.literal .null "null")
  | .bool b => .mk (.literal (.boolean b) (if b then "true" else "false"))
  | .int n => signedTree (toString n).toList
  | .double x => signedTree x.toJson.toList
  | .string s => Source.stringTree (quote s)
  | .array items => .mk (.arrayExpression (itemTrees items))
  | .object members => .mk (.objectExpression (memberTrees members))

def itemTrees : List Json → List (Option Tree)
  | [] => []
  | j :: rest => some j.tree :: itemTrees rest

def memberTrees : List (String × Json) → List Tree
  | [] => []
  | (name, j) :: rest => Source.plainProperty (key name) j.tree :: memberTrees rest
end

theorem numberTree_closed (raw : String) : (Source.numberTree raw).isOpenChain = false := by
  rw [Source.numberTree]
  split <;> rfl

theorem not_isOpenChain (j : Json) : j.tree.isOpenChain = false := by
  have signed (text : List Char) : (signedTree text).isOpenChain = false := by
    rw [signedTree.eq_def]
    split
    next => rfl
    next => exact numberTree_closed _
  cases j with
  | int n => exact signed _
  | double x => exact signed _
  | _ => rfl

/-! ## Numbers -/

theorem toList_toString_natCast (n : Nat) : (toString (n : Int)).toList = Nat.toDigits 10 n := Nat.toList_repr

theorem toList_toString_neg (n : Nat) : (toString (-(n + 1 : Nat) : Int)).toList = '-' :: Nat.toDigits 10 (n + 1) := by
  change ("-" ++ Nat.repr (n + 1)).toList = _
  rw [String.toList_append, Nat.toList_repr]
  rfl

/-- The text of a number is a numeral, perhaps behind a minus sign, and this denotes the number. -/
theorem numeral_spec {j : Json} (hj : j.Proper) {x : Double} (hx : j.number? = some x) :
    ∃ (minus : Bool) (d : Decimal), d.WellFormed ∧ (if minus then d.value.neg else d.value) = x ∧
      (Source.ofJson j).toList = if minus then '-' :: d.text else d.text := by
  -- An integer is written in its digits, which stand for the double nearest to it. A double is written as its shortest decimal.
  cases hj with
  | int n h =>
    obtain rfl := Option.some.inj hx
    rw [fitsInteger, Bool.and_eq_true, decide_eq_true_eq, decide_eq_true_eq, twoTo_eq, twoTo_eq] at h
    obtain ⟨hlow, hhigh⟩ := h
    rcases lt_or_ge n 0 with hneg | hnonneg
    · obtain ⟨m, rfl⟩ : ∃ m : Nat, n = -(m + 1 : Nat) := ⟨(-n - 1).toNat, by omega⟩
      obtain ⟨d, hd, hvalue, htext⟩ := @Double.toDigits_spec (m + 1) (by push_cast at hlow; omega)
      refine ⟨true, d, hd, ?_, ?_⟩
      · rw [if_pos rfl, hvalue, Double.neg_ofRatio, Double.ofInt, decide_eq_true hneg, Int.natAbs_neg, Int.natAbs_natCast]
        rfl
      · rw [if_pos rfl, htext, Source.ofJson, toList_toString_neg]
    · obtain ⟨m, rfl⟩ := Int.eq_ofNat_of_zero_le hnonneg
      obtain ⟨d, hd, hvalue, htext⟩ := @Double.toDigits_spec m (by push_cast at hhigh; omega)
      refine ⟨false, d, hd, ?_, ?_⟩
      · rw [if_neg Bool.false_ne_true, hvalue, Double.ofInt, decide_eq_false (Int.not_lt.2 hnonneg), Int.natAbs_natCast]
      · rw [if_neg Bool.false_ne_true, htext, Source.ofJson, toList_toString_natCast]
  | double y h =>
    obtain rfl := Option.some.inj hx
    obtain ⟨d, hd, hvalue, htext⟩ := Double.toJson_spec h
    refine ⟨y.negative, d, hd, ?_, ?_⟩
    · have hfields := y.ofFields_eq
      cases hneg : y.negative <;> rw [hneg] at hfields
      · rw [if_neg Bool.false_ne_true, hvalue, hfields]
      · rw [if_pos rfl, hvalue, Double.neg_ofFields y.magnitude_lt]
        exact hfields
    · rw [Source.ofJson, htext, Double.signed, String.toList_ofList]
  | _ => cases hx

end Json

namespace Source

open Read

variable {read : Readers} {fuel n : Nat} {mode first later : Mode} {s s' : State} {rest next : List Char} {j : Json}

/-! ## Items -/

/-- The reader takes the text of a value for its tree wherever a value can stand. -/
structure Reads (read : Readers) (j : Json) : Prop where
  begins : Begins startsValue (ofJson j).toList
  takes (mode : Mode) (hmode : mode.ends = false) : Takes (read (.expression mode)) (ofJson j).toList j.tree

theorem item_runs (h : Reads read j) (hmode : mode.ends = false) (hs : At s ((ofJson j).toList ++ rest))
    (hrest : Ends rest next) :
    ∃ i s', (item read mode).run s = some (i, s') ∧ i.rest = false ∧ i.reading.closed? = some j.tree ∧ Closing s' next := by
  obtain ⟨r, s', hrun, hr, hclosing⟩ := h.takes mode hmode s rest next hs hrest
  have hstart := h.begins.at hrest.delimited hs
  have hdots : s.token ≠ .punct "..." := by
    intro htoken
    rw [htoken] at hstart
    exact absurd hstart (by decide)
  exact ⟨⟨false, r⟩, s', run_item hdots hrun, rfl, closed?_of_expression hr j.not_isOpenChain, hclosing⟩

/-- A value is a part of a list. -/
theorem Reads.rereads (h : Reads read j) : Rereads read [.element, .inner] Item.argument? (ofJson j).toList j.tree where
  begins := h.begins.mono fun t ht => by
    rw [startsPart, Bool.and_eq_true, decide_eq_true_eq, decide_eq_true_eq]
    constructor <;> rintro rfl <;> exact absurd ht (by decide)
  takes mode hmode s c cs hc hs := by
    obtain ⟨i, s', hrun, hrest, hclosed, hclosing⟩ := item_runs h (not_ends_of_mem hmode) hs (ends_mark hc)
    exact ⟨i, s', hrun, by rw [Item.argument?, hrest, if_neg Bool.false_ne_true, hclosed], hclosing.toAt⟩

/-- The items as parts of a list. -/
def itemParts (items : List Json) : Parts := items.map fun j => some ((ofJson j).toList, j.tree)

theorem ofItems_cons (j k : Json) (items : List Json) :
    ofItems (j :: k :: items) = ofJson j ++ ", " ++ ofItems (k :: items) := rfl

theorem text_itemParts (items : List Json) : (itemParts items).text = (ofItems items).toList := by
  induction items with
  | nil => rfl
  | cons j items ih =>
    cases items with
    | nil => rfl
    | cons k items =>
      rw [ofItems_cons, String.toList_append, String.toList_append, ← ih, List.append_assoc]
      rfl

theorem trees_itemParts (items : List Json) : (itemParts items).trees = Json.itemTrees items := by
  induction items with
  | nil => rfl
  | cons j items ih => rw [Json.itemTrees, ← ih, itemParts, Parts.trees, List.map_cons, List.map_cons]; rfl

theorem toList_array (items : List Json) : (ofJson (.array items)).toList = '[' :: ((ofItems items).toList ++ [']']) := by
  rw [ofJson, String.toList_append, String.toList_append]
  rfl

/-- An array is taken if its items are read. -/
theorem takes_array {items : List Json} (hread : ∀ j ∈ items, Reads read j) (hn : items.length ≤ n) (mode : Mode)
    (calls : Bool) : Takes (primary read (n + 1) mode calls) (ofJson (.array items)).toList (Json.tree (.array items)) := by
  intro s rest next hs hrest
  rw [toList_array, List.cons_append, List.append_assoc, List.singleton_append, ← text_itemParts] at hs
  have hparts : ∀ p, some p ∈ itemParts items → Rereads read [.element, .inner] Item.argument? p.1 p.2 := by
    intro p hp
    obtain ⟨j, hj, hp⟩ := List.mem_map.1 hp
    cases hp
    exact (hread j hj).rereads
  have hlength : (itemParts items).length < n + 1 := by
    rw [itemParts, List.length_map]
    omega
  obtain ⟨is, hruns, his⟩ := primary_list hparts hlength mode calls hs
  refine ⟨arrayReading is, State.ofText false rest, hruns, ?_, hrest.closing false⟩
  rw [trees_itemParts] at his
  rw [arrayReading, his]
  rfl

/-! ## Members -/

/-- The token that a key is. -/
def keyToken (name : String) : Token := if isIdentifierName name then .word name else .string (Json.quote name)

theorem delimited_colon (cs : List Char) : Delimited (':' :: cs) := ⟨':', cs, rfl, by decide⟩

theorem nextToken_key (name : String) (hrest : Delimited rest) :
    nextToken ((keyText name).toList ++ rest) = (keyToken name, rest) := by
  rw [keyText, keyToken]
  by_cases h : isIdentifierName name = true
  · rw [if_pos h, if_pos h, nextToken_word (isWord_of_identifierName h) hrest, String.ofList_toList]
  · rw [if_neg h, if_neg h, nextToken_quote]

theorem skipsTo_key (name : String) (rest : List Char) :
    SkipsTo ((keyText name).toList ++ rest) ((keyText name).toList ++ rest) := by
  rw [keyText]
  split
  next h => exact skipsTo_word (isWord_of_identifierName h)
  next => exact skipsTo_quote name

/-- What stands behind `static` where a key and its colon begin with it is no blank. -/
theorem not_blank_behind {name : String} {tail : List Char} {c : Char}
    (h : "static".toList ++ c :: tail = (keyText name).toList ++ ':' :: cs) : isAsciiBlank c = false := by
  rw [keyText] at h
  split at h
  next hname =>
    -- either the name goes on, or it ends and the colon follows
    rcases List.append_eq_append_iff.1 h with ⟨more, hkey, hmore⟩ | ⟨more, hword, hmore⟩
    · cases more with
      | nil =>
        cases hmore
        rfl
      | cons e more =>
        cases hmore
        have hblank := name_not_blank ((isWord_of_identifierName hname).part c (by rw [hkey]; simp))
        rw [isBlank, Bool.or_eq_false_iff] at hblank
        exact hblank.1
    · cases more with
      | nil =>
        cases hmore
        rfl
      | cons e more =>
        cases hmore
        exact absurd (show ':' ∈ "static".toList by rw [hword]; simp) (by decide)
  next =>
    rw [toList_quote] at h
    exact absurd (List.cons.inj h).1 (by decide)

/-- A key in front of its colon is never taken for the line of a static getter. -/
theorem staticGetLine?_key (name : String) (cs : List Char) : staticGetLine? ((keyText name).toList ++ ':' :: cs) = none := by
  rw [staticGetLine?]
  by_cases hstatic : "static".toList.isPrefixOf ((keyText name).toList ++ ':' :: cs) = true
  · obtain ⟨tail, htail⟩ := List.isPrefixOf_iff_prefix.1 hstatic
    have hgap : ((((keyText name).toList ++ ':' :: cs).drop 6).takeWhile isAsciiBlank) = [] := by
      rw [← htail, show (6 : Nat) = "static".toList.length from rfl, List.drop_left]
      cases tail with
      | nil => rfl
      | cons c tail => rw [List.takeWhile_cons, not_blank_behind htail, if_neg Bool.false_ne_true]
    rw [hstatic, Bool.not_true, if_neg Bool.false_ne_true]
    dsimp only
    rw [hgap]
    rfl
  · rw [Bool.not_eq_true] at hstatic
    rw [hstatic]
    rfl

theorem modifier?_runs {w : String} {mayBeField star : Bool}
    (h : s.token = .word w → (State.ofText (!mayBeField) s.rest).token = .punct ":") :
    (modifier? mayBeField w star).run s = some (false, s) := by
  rw [modifier?, run_bind (run_isWord w s)]
  by_cases htoken : s.token = .word w
  · rw [decide_eq_true htoken, if_pos rfl]
    rw [run_bind (show (get : Read State).run s = some (s, s) from rfl)]
    have hcolon := h htoken
    generalize State.ofText (!mayBeField) s.rest = next at hcolon
    dsimp only
    rw [hcolon]
    cases star <;> rfl
  · rw [decide_eq_false htoken]
    rfl

/-- Nothing in front of a colon is a modifier. -/
theorem modifiers_runs (hline : staticGetLine? s.start = none) (hstar : s.token ≠ .punct "*")
    (hcolon : ∀ markup, (State.ofText markup s.rest).token = .punct ":") : (modifiers false).run s = some ({}, s) := by
  rw [modifiers, run_bind (run_textAhead s), hline]
  dsimp only
  rw [run_bind (modifier?_runs fun _ => hcolon _), if_neg Bool.false_ne_true,
    run_bind (modifier?_runs fun _ => hcolon _), if_neg Bool.false_ne_true,
    run_bind (run_punct?_no hstar), if_neg Bool.false_ne_true,
    run_bind (modifier?_runs fun _ => hcolon _), if_neg Bool.false_ne_true,
    run_bind (modifier?_runs fun _ => hcolon _), if_neg Bool.false_ne_true]
  rfl

theorem decorators_runs (hs : s.token ≠ .punct "@") : (decorators read (n + 1)).run s = some (false, s) := by
  rw [decorators, run_bind (run_collect_nil (?_ : StateT.run _ _ = some (none, s)) n)]
  · rfl
  · rw [run_bind (run_isPunct "@" s), decide_eq_false hs]
    rfl

theorem propertyName_runs {name : String} (hs : s.token = keyToken name) :
    (propertyName read mode).run s = some (Json.key name, State.ofText (!(keyToken name).endsOperand) s.rest) := by
  rw [propertyName, run_bind (run_peek s), Json.key, ← hs]
  rw [keyToken] at hs
  split at hs
  next h =>
    rw [if_pos h, hs]
    change (advance >>= fun _ => Pure.pure (Key.named name)).run s = _
    rw [run_bind (run_advance s), hs]
    rfl
  next h =>
    rw [if_neg h, hs]
    change (advance >>= fun _ => Pure.pure (Key.other (stringTree (Json.quote name)))).run s = _
    rw [run_bind (run_advance s), hs]
    rfl

/-- A member with its value, from its colon on. -/
theorem memberRest_runs (hj : Reads read j) (hmode : mode.ends = false) (markup : Bool) (hrest : Ends rest next) (key : Key) :
    ∃ pattern s', (memberRest read n mode true {} key).run (State.ofText markup (':' :: ' ' :: ((ofJson j).toList ++ rest))) =
      some ((some (plainProperty key j.tree), pattern), s') ∧ Closing s' next := by
  generalize hcs : ' ' :: ((ofJson j).toList ++ rest) = cs
  have hcolon : At (State.ofText true (':' :: cs)) (':' :: cs) := at_ofText (skipsTo_mark (by decide)) true
  obtain ⟨htoken, htail⟩ := hcolon.token_eq (nextToken_mark (by decide))
  have hvalue : At (State.ofText true cs) ((ofJson j).toList ++ rest) := by
    rw [← hcs]
    exact at_ofText (skipsTo_cons (by decide) (hj.begins.skips rest)) true
  obtain ⟨i, s', hrun, hirest, hclosed, hclosing⟩ := item_runs hj hmode hvalue hrest
  refine ⟨i.element?.map (plainProperty key), s', ?_, hclosing⟩
  rw [memberRest, run_bind (run_markupAhead _)]
  change (peek >>= _).run (State.ofText true (':' :: cs)) = _
  rw [run_bind (run_peek _), htoken]
  change (guardThat true >>= fun _ => advance >>= fun _ => item read mode >>= fun i => Pure.pure
    ((if i.rest = true then none else i.reading.closed?).map (plainProperty key), i.element?.map (plainProperty key))).run
      (State.ofText true (':' :: cs)) = _
  rw [run_bind (run_guardThat rfl _), run_bind (run_advance _), htoken, htail]
  change (item read mode >>= fun i => Pure.pure
    ((if i.rest = true then none else i.reading.closed?).map (plainProperty key), i.element?.map (plainProperty key))).run
      (State.ofText true cs) = _
  rw [run_bind hrun, hirest, if_neg Bool.false_ne_true, hclosed]
  rfl

theorem key_not_punct {name : String} {cs : List Char} (hs : At s ((keyText name).toList ++ ':' :: cs)) (p : String) :
    s.token ≠ .punct p := by
  rw [(hs.token_eq (nextToken_key name (delimited_colon cs))).1, keyToken]
  split <;> nofun

/-- A key with its value. -/
theorem objectMember_runs (name : String) (hj : Reads read j) (hmode : mode.ends = false)
    (hs : At s ((keyText name).toList ++ ':' :: ' ' :: ((ofJson j).toList ++ rest))) (hrest : Ends rest next) :
    ∃ pattern s', (objectMember read (n + 1) mode).run s = some ((some (plainProperty (Json.key name) j.tree), pattern), s') ∧
      Closing s' next := by
  generalize hcs : ' ' :: ((ofJson j).toList ++ rest) = cs at hs
  obtain ⟨htoken, htail⟩ := hs.token_eq (nextToken_key name (delimited_colon cs))
  have hpunct := key_not_punct hs
  have hcolon (markup : Bool) : (State.ofText markup s.rest).token = .punct ":" := by
    rw [htail]
    exact ((at_ofText (skipsTo_mark (by decide)) markup).token_eq (nextToken_mark (by decide))).1
  have hline : staticGetLine? s.start = none := by
    rw [hs.start]
    exact staticGetLine?_key name cs
  obtain ⟨pattern, s', hrun, hclosing⟩ := @memberRest_runs read (n + 1) mode rest next j hj hmode
    (!(keyToken name).endsOperand) hrest (Json.key name)
  rw [hcs] at hrun
  refine ⟨pattern, s', ?_, hclosing⟩
  have hkeyed : (keyedMember read (n + 1) mode).run s = some ((some (plainProperty (Json.key name) j.tree), pattern), s') := by
    rw [keyedMember, run_bind (decorators_runs (hpunct "@")), run_bind (modifiers_runs hline (hpunct "*") hcolon),
      run_bind (propertyName_runs htoken), htail]
    exact hrun
  rw [objectMember, run_bind (run_peek s), ← hkeyed, htoken, keyToken]
  by_cases h : isIdentifierName name = true
  · rw [if_pos h]
  · rw [if_neg h]

theorem ends_brace (cs : List Char) : Ends (' ' :: '\x7d' :: cs) ('\x7d' :: cs) :=
  ⟨⟨' ', '\x7d' :: cs, rfl, by decide⟩, skipsTo_cons (by decide) (skipsTo_mark (by decide)), '\x7d', cs, rfl, by decide⟩

/-- The text of members from a key on, up to the closing brace. -/
def membersText (name : String) (j : Json) (members : List (String × Json)) (rest : List Char) : List Char :=
  (keyText name).toList ++ ':' :: ' ' :: ((ofJson j).toList ++ ((ofMembers members).toList ++ ' ' :: '\x7d' :: rest))

theorem membersText_cons (name name' : String) (j j' : Json) (members : List (String × Json)) (rest : List Char) :
    membersText name j ((name', j') :: members) rest =
      (keyText name).toList ++ ':' :: ' ' :: ((ofJson j).toList ++ ',' :: ' ' :: membersText name' j' members rest) := by
  rw [membersText, membersText, ofMembers]
  simp only [String.toList_append, List.append_assoc]
  rfl

/-- Members between commas, up to the brace that closes them. -/
theorem objectMembers_runs {members : List (String × Json)} {name : String} (hj : Reads read j)
    (hread : ∀ m ∈ members, Reads read m.2) (hfirst : first.ends = false) (hlater : later.ends = false)
    (hn : members.length < n) (place : Nat) (acc : List Member) (hs : At s (membersText name j members rest)) :
    ∃ ms, (objectMembers read (fuel + 1) first later n place acc).run s = some (acc.reverse ++ ms, State.ofText false rest) ∧
      ms.mapM Prod.fst = some (Json.memberTrees ((name, j) :: members)) := by
  -- Each round reads a member and finds a comma or the brace behind it, since no key is one.
  induction members generalizing n name j place acc s with
  | nil =>
    obtain ⟨n, rfl⟩ : ∃ m, n = m + 1 := ⟨n - 1, by omega⟩
    have hmode : (if place < 2 then first else later).ends = false := by split <;> assumption
    obtain ⟨pattern, s', hrun, hclosing⟩ := @objectMember_runs read fuel _ s _ _ j name hj hmode hs (ends_brace rest)
    obtain ⟨htoken, htail⟩ := hclosing.mark (by decide)
    refine ⟨[(some (plainProperty (Json.key name) j.tree), pattern)], ?_, rfl⟩
    rw [objectMembers, run_bind (run_punct?_no (key_not_punct hs _)), if_neg Bool.false_ne_true,
      run_bind (run_punct?_no (key_not_punct hs _)), if_neg Bool.false_ne_true, run_bind hrun,
      run_bind (run_punct?_no (by rw [htoken]; decide)), if_neg Bool.false_ne_true, run_bind (run_punct htoken), htail,
      List.reverse_cons]
    rfl
  | cons m members ih =>
    obtain ⟨n, rfl⟩ : ∃ m, n = m + 1 := ⟨n - 1, by omega⟩
    obtain ⟨name', j'⟩ := m
    have hmode : (if place < 2 then first else later).ends = false := by split <;> assumption
    rw [membersText_cons] at hs
    obtain ⟨pattern, s', hrun, hclosing⟩ := @objectMember_runs read fuel _ s _ _ j name hj hmode hs (ends_mark (.inl rfl))
    obtain ⟨htoken, htail⟩ := hclosing.mark (by decide)
    have hat : At (State.ofText true (' ' :: membersText name' j' members rest)) (membersText name' j' members rest) :=
      at_ofText (skipsTo_cons (by decide) (skipsTo_key name' _)) true
    obtain ⟨ms, hruns, hms⟩ := ih (hread (name', j') List.mem_cons_self) (fun m hm => hread m (List.mem_cons_of_mem _ hm))
      (n := n) (by rw [List.length_cons] at hn; omega)
      (if isShorthand (some (plainProperty (Json.key name) j.tree), pattern) then place + 1 else 2)
      ((some (plainProperty (Json.key name) j.tree), pattern) :: acc) hat
    refine ⟨(some (plainProperty (Json.key name) j.tree), pattern) :: ms, ?_, ?_⟩
    · rw [objectMembers, run_bind (run_punct?_no (key_not_punct hs _)), if_neg Bool.false_ne_true,
        run_bind (run_punct?_no (key_not_punct hs _)), if_neg Bool.false_ne_true, run_bind hrun,
        run_bind (run_punct?_yes htoken), if_pos rfl, htail]
      rw [List.reverse_cons, List.append_assoc] at hruns
      exact hruns
    · rw [List.mapM_cons, hms]
      rfl

theorem toList_object (name : String) (j : Json) (members : List (String × Json)) (rest : List Char) :
    (ofJson (.object ((name, j) :: members))).toList ++ rest = '\x7b' :: ' ' :: membersText name j members rest := by
  rw [ofJson, membersText]
  simp only [String.toList_append, List.append_assoc]
  rfl

/-- An object is taken if its values are read. -/
theorem takes_object {members : List (String × Json)} (hread : ∀ m ∈ members, Reads read m.2) (hn : members.length ≤ n)
    (mode : Mode) (calls : Bool) :
    Takes (primary read (n + 1) mode calls) (ofJson (.object members)).toList (Json.tree (.object members)) := by
  intro s rest next hs hrest
  -- an empty object has no blank behind its brace, so it is read apart
  have hmembers : s.token = .punct "\x7b" ∧ ∃ ms, (objectMembers read (n + 1) .element .inner (n + 1) 0 []).run
      (State.ofText true s.rest) = some (ms, State.ofText false rest) ∧ ms.mapM Prod.fst = some (Json.memberTrees members) := by
    cases members with
    | nil =>
      obtain ⟨htoken, htail⟩ := hs.token_eq (@nextToken_mark ('\x7d' :: rest) '\x7b' (by decide))
      have hat : At (State.ofText true ('\x7d' :: rest)) ('\x7d' :: rest) := at_ofText (skipsTo_mark (by decide)) true
      obtain ⟨hclose, hbehind⟩ := hat.token_eq (nextToken_mark (by decide))
      refine ⟨htoken, [], ?_, rfl⟩
      rw [objectMembers, htail, run_bind (run_punct?_yes hclose), if_pos rfl, hbehind]
      rfl
    | cons m members =>
      obtain ⟨name, j⟩ := m
      rw [toList_object] at hs
      obtain ⟨htoken, htail⟩ := hs.token_eq (nextToken_mark (by decide))
      refine ⟨htoken, ?_⟩
      rw [htail]
      exact objectMembers_runs (hread (name, j) List.mem_cons_self) (fun m hm => hread m (List.mem_cons_of_mem _ hm)) rfl rfl
        (Nat.lt_succ_of_le (Nat.le_of_succ_le hn)) 0 [] (at_ofText (skipsTo_cons (by decide) (skipsTo_key name _)) true)
  obtain ⟨htoken, ms, hruns, hms⟩ := hmembers
  refine ⟨.ofBraces ((ms.mapM Prod.fst).map fun ps => .mk (.objectExpression ps))
    ((ms.mapM Prod.snd).map fun ps => .mk (.objectPattern ps)), State.ofText false rest, ?_, ?_, hrest.closing false⟩
  · rw [primary, run_bind (run_textAhead s), run_bind (run_peek s), htoken]
    change (object read (n + 1) .element .inner).run s = _
    rw [object, run_bind (run_punct htoken)]
    exact run_bind hruns
  · change (ms.mapM Prod.fst).map _ = _
    rw [hms]
    rfl

/-! ## Values -/

theorem length_ofItems (items : List Json) : items.length ≤ (ofItems items).toList.length + 1 ∧
    ∀ j ∈ items, (ofJson j).toList.length ≤ (ofItems items).toList.length := by
  obtain ⟨hlength, hparts⟩ := (itemParts items).length_text
  rw [text_itemParts] at hlength hparts
  rw [itemParts, List.length_map] at hlength
  exact ⟨hlength, fun j hj => hparts _ (List.mem_map_of_mem hj)⟩

theorem length_ofMembers (members : List (String × Json)) : members.length ≤ (ofMembers members).toList.length ∧
    ∀ m ∈ members, (ofJson m.2).toList.length ≤ (ofMembers members).toList.length := by
  induction members with
  | nil => simp
  | cons m members ih =>
    obtain ⟨name, j⟩ := m
    have hcomma : ", ".toList.length = 2 := rfl
    have hcolon : ": ".toList.length = 2 := rfl
    rw [ofMembers]
    simp only [String.toList_append, List.length_append, List.length_cons]
    refine ⟨by omega, fun m' hm' => ?_⟩
    rcases List.mem_cons.1 hm' with rfl | hm'
    · dsimp only
      omega
    · have := ih.2 m' hm'
      omega

/-- An operand is read as soon as it is taken. -/
theorem reads_operand {sense : AwaitSense} (hb : Begins startsData (ofJson j).toList)
    (h : ∀ mode, Takes (primary (readers sense (n + 1)) (n + 1) mode true) (ofJson j).toList j.tree) :
    Reads (readers sense (n + 2)) j :=
  ⟨hb.value, fun mode hmode => .operation hmode 1 (.unary hmode hb (h mode))⟩

/-- A constant is taken for its word. -/
theorem reads_constant {sense : AwaitSense} {value : LiteralValue} {word : String} (hword : (word, value) ∈ constants)
    (htext : (ofJson j).toList = word.toList) (htree : j.tree = .mk (.literal value word))
    (hn : (ofJson j).toList.length ≤ n) : Reads (readers sense (n + 1)) j := by
  have hpos : 0 < word.toList.length := List.length_pos_iff.2 (constants_isWord hword).1.nonempty
  rw [htext] at hn
  obtain ⟨n, rfl⟩ : ∃ m, n = m + 1 := ⟨n - 1, by omega⟩
  refine reads_operand ?_ fun mode => ?_
  · rw [htext]
    exact begins_constant hword
  · rw [htext, htree]
    exact takes_constant hword mode true

/-- A number is taken, with or without a minus sign. -/
theorem reads_number {sense : AwaitSense} {x : Double} (hj : j.Proper) (hx : j.number? = some x)
    (htree : j.tree = Json.signedTree (ofJson j).toList) (hn : (ofJson j).toList.length ≤ n) :
    Reads (readers sense (n + 1)) j := by
  obtain ⟨minus, d, hd, -, htext⟩ := Json.numeral_spec hj hx
  obtain ⟨c, cs, hhead, hc⟩ := Decimal.head_digit hd
  rw [htext] at hn
  cases minus with
  | false =>
    rw [if_neg Bool.false_ne_true] at htext hn
    have htree' : j.tree = numberTree (String.ofList d.text) := by
      rw [htree, htext, hhead, Json.signedTree]
      rintro numeral ⟨⟩
      cases hc
    obtain ⟨n, rfl⟩ : ∃ m, n = m + 1 := ⟨n - 1, by rw [hhead, List.length_cons] at hn; omega⟩
    refine reads_operand ?_ fun mode => ?_
    · rw [htext]
      exact begins_numeral hd
    · rw [htext, htree']
      exact takes_numeral hd mode true
  | true =>
    rw [if_pos rfl] at htext hn
    have htree' : j.tree = .mk (.unaryExpression "-" (numberTree (String.ofList d.text))) := by
      rw [htree, htext, Json.signedTree]
    obtain ⟨n, rfl⟩ : ∃ m, n = m + 2 := ⟨n - 2, by rw [hhead, List.length_cons, List.length_cons] at hn; omega⟩
    refine ⟨?_, fun mode hmode => ?_⟩
    · rw [htext]
      exact begins_minus hd
    -- the numeral is read behind the sign, in the mode that holds there
    · have hbehind : mode.behind.ends = false := by
        rw [Mode.behind]
        split <;> exact hmode
      rw [htext, htree']
      exact .operation hmode 1 (takes_minus hd (Json.numberTree_closed _)
        (.unary hbehind (begins_numeral hd) (takes_numeral hd mode.behind true)))

/-- With as many steps as its text is long, a value is read. -/
theorem reads_value (sense : AwaitSense) (hj : j.Proper) (hn : (ofJson j).toList.length ≤ n) :
    Reads (readers sense (n + 1)) j := by
  -- On the value: its parts are shorter than it, so one step fewer is enough for them.
  induction hj generalizing n with
  | null => exact reads_constant (show ("null", .null) ∈ constants by decide) rfl rfl hn
  | bool b =>
    cases b with
    | false => exact reads_constant (show ("false", .boolean false) ∈ constants by decide) rfl rfl hn
    | true => exact reads_constant (show ("true", .boolean true) ∈ constants by decide) rfl rfl hn
  | int k h => exact reads_number (.int k h) rfl rfl hn
  | double x h => exact reads_number (.double x h) rfl rfl hn
  | string text =>
    obtain ⟨n, rfl⟩ : ∃ m, n = m + 1 := ⟨n - 1, by rw [ofJson, toList_quote] at hn; simp at hn; omega⟩
    exact reads_operand (begins_quote text) fun mode => takes_quote text mode true
  | array items _ ih =>
    obtain ⟨hlength, hitems⟩ := length_ofItems items
    rw [toList_array, List.length_cons, List.length_append, List.length_singleton] at hn
    obtain ⟨n, rfl⟩ : ∃ m, n = m + 1 := ⟨n - 1, by omega⟩
    have hb : Begins startsData (ofJson (.array items)).toList := by
      rw [toList_array]
      exact begins_mark (by decide) (by decide) _
    have hread : ∀ j ∈ items, Reads (readers sense (n + 1)) j := fun j hj => ih j hj (by have := hitems j hj; omega)
    exact reads_operand hb fun mode => takes_array hread (by omega) mode true
  | object members _ _ ih =>
    have hb : Begins startsData (ofJson (.object members)).toList := by
      cases members with
      | nil => exact begins_mark (c := '\x7b') (by decide) (by decide) ['\x7d']
      | cons m members =>
        have htext := toList_object m.1 m.2 members []
        rw [List.append_nil] at htext
        rw [htext]
        exact begins_mark (by decide) (by decide) _
    obtain ⟨n, rfl, hlength, hvalues⟩ : ∃ m, n = m + 1 ∧ members.length ≤ m ∧ ∀ m' ∈ members, (ofJson m'.2).toList.length ≤ m := by
      cases members with
      | nil => exact ⟨n - 1, by simp [ofJson] at hn; omega, by simp, by simp⟩
      | cons m members =>
        obtain ⟨name, j⟩ := m
        obtain ⟨hlength, hvalues⟩ := length_ofMembers members
        rw [ofJson] at hn
        simp only [String.toList_append, List.length_append] at hn
        have hopen : "\x7b ".toList.length = 2 := rfl
        refine ⟨n - 1, by omega, by rw [List.length_cons]; omega, fun m' hm' => ?_⟩
        rcases List.mem_cons.1 hm' with rfl | hm'
        · dsimp only
          omega
        · have := hvalues m' hm'
          omega
    have hread : ∀ m ∈ members, Reads (readers sense (n + 1)) m.2 := fun m hm => ih m hm (hvalues m hm)
    exact reads_operand hb fun mode => takes_object hread hlength mode true

/-- The text of a value is read as its tree. -/
theorem readExpression_tree (hj : j.Proper) : readExpression (ofJson j) = .ok j.tree := by
  have hreads {n : Nat} (hn : (ofJson j).toList.length ≤ n) := reads_value .byContext hj hn
  exact readExpression_runs ((hreads le_rfl).begins.skips _) (fun n hn => (hreads hn).takes .element rfl) j.not_isOpenChain

end Source
end Graft
