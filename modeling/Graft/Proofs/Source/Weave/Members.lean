import Graft.Proofs.Source.Weave.Parts
/-!
# Members are woven from their leaves

Objects and classes. Decorators are all that their readers drop.
-/

namespace Graft.Source

open Read Graft.Tree

variable {drops : List Char → List Char → Prop} {cs : List Char} {kept : List String}

/-! ## Names and modifiers -/

theorem leaves_stringTree (raw : String) : (stringTree raw).leaves = [raw] := leaves_literal _ raw

theorem leaves_numberTree (raw : String) : (numberTree raw).leaves = [raw] := by
  rw [numberTree]
  split
  next => exact leaves_literal _ raw
  next => exact leaves_verbatim raw

theorem leaves_privateIdentifier (name : String) : leaves (.mk (.privateIdentifier name)) = ["#" ++ name] := by
  simp [leaves_eq (.mk (.privateIdentifier name)), node, Node.leafText?, shown, Node.children, Node.fields]

/-- A name whose key and value are written apart. -/
theorem leaves_property (key value : Tree) (kind : PropertyKind) (computed method : Bool) :
    leaves (.mk (.property key value kind computed false method)) = key.leaves ++ value.leaves := by
  simp [leaves_node (n := .property key value kind computed false method) rfl rfl]

theorem leaves_shorthandProperty {name : String} {value : Tree} (h : shorthandIntact (identifierTree name) value = true) :
    (shorthandProperty name value).leaves = value.leaves := by
  simp [shorthandProperty, leaves_eq (.mk (.property _ value .init false true false)), node, Node.leafText?, shown, h]

/-- A name alone is written once. -/
theorem leaves_shorthand (name : String) : (shorthandProperty name (identifierTree name)).leaves = [name] := by
  have h : shorthandIntact (identifierTree name) (identifierTree name) = true := decide_eq_true rfl
  rw [leaves_shorthandProperty h, leaves_identifierTree]

/-- A name with a default is written once. -/
theorem leaves_shorthandDefault (name : String) (value : Tree) :
    (shorthandProperty name (.mk (.assignmentPattern (identifierTree name) value))).leaves = name :: value.leaves := by
  have h : shorthandIntact (identifierTree name)
      (.mk (.assignmentPattern (identifierTree name) value)) = true := decide_eq_true rfl
  rw [leaves_shorthandProperty h, leaves_node rfl rfl]
  simp [Node.children, Node.fields, leaves_identifierTree]

theorem leaves_objectExpression (ts : List Tree) : leaves (.mk (.objectExpression ts)) = ts.flatMap leaves := by
  rw [leaves_node rfl rfl, Node.children_objectExpression]

theorem leaves_objectPattern (ts : List Tree) : leaves (.mk (.objectPattern ts)) = ts.flatMap leaves := by
  simp [leaves_node (n := .objectPattern ts) rfl rfl, Node.children, Node.fields]

theorem leaves_arrayExpression (es : List (Option Tree)) :
    leaves (.mk (.arrayExpression es)) = (es.filterMap id).flatMap leaves := by
  simp [leaves_node (n := .arrayExpression es) rfl rfl, Node.children, Node.fields]

theorem leaves_arrayPattern (es : List (Option Tree)) : leaves (.mk (.arrayPattern es)) = (es.filterMap id).flatMap leaves := by
  simp [leaves_node (n := .arrayPattern es) rfl rfl, Node.children, Node.fields]

/-! ### `static get` before a line break -/

theorem asciiBlank_cases {c : Char} (h : isAsciiBlank c = true) :
    c = ' ' ∨ c = '\t' ∨ c = '\n' ∨ c = '\x0b' ∨ c = '\x0c' ∨ c = '\r' := by
  simp only [isAsciiBlank, Bool.or_eq_true, decide_eq_true_eq, Bool.and_eq_true] at h
  rcases h with rfl | h
  · exact .inl rfl
  · have hc : c = Char.ofNat c.toNat := (Char.ofNat_toNat c).symm
    have hn : c.toNat = 9 ∨ c.toNat = 10 ∨ c.toNat = 11 ∨ c.toNat = 12 ∨ c.toNat = 13 := by omega
    rcases hn with hn | hn | hn | hn | hn <;> rw [hc, hn] <;> decide

theorem skip_blanks {blanks : List Char} (h : ∀ c ∈ blanks, isAsciiBlank c = true) (start rest : List Char) :
    skip true (.code true) start (blanks ++ 'g' :: rest) = 'g' :: rest := by
  induction blanks generalizing start with
  | nil => rfl
  | cons c blanks ih =>
    have hstep : skip true (.code true) start (c :: (blanks ++ 'g' :: rest)) =
        skip true (.code true) [] (blanks ++ 'g' :: rest) := by
      rcases asciiBlank_cases (h c List.mem_cons_self) with rfl | rfl | rfl | rfl | rfl | rfl <;> rfl
    rw [List.cons_append, hstep]
    exact ih (fun d hd => h d (List.mem_cons_of_mem c hd)) []

theorem nameLength_blank {c : Char} (h : isAsciiBlank c = true) (n : Nat) (rest : List Char) :
    nameLength 0 (n + 1) (c :: rest) = n + 1 := by
  rcases asciiBlank_cases h with rfl | rfl | rfl | rfl | rfl | rfl <;> rfl

theorem nextToken_static {c : Char} (h : isAsciiBlank c = true) (rest : List Char) :
    nextToken ("static".toList ++ c :: rest) = (.word "static", c :: rest) := by
  have hn : nameLength 0 0 ("static".toList ++ c :: rest) = 6 := nameLength_blank h 5 rest
  have hcut : nextToken ("static".toList ++ c :: rest) =
      cut .word (nameLength 0 0 ("static".toList ++ c :: rest)) ("static".toList ++ c :: rest) := rfl
  rw [hcut, hn]
  rfl

theorem nextToken_get {c : Char} (h : isAsciiBlank c = true) (rest : List Char) :
    nextToken ("get".toList ++ c :: rest) = (.word "get", c :: rest) := by
  have hn : nameLength 0 0 ("get".toList ++ c :: rest) = 3 := nameLength_blank h 2 rest
  have hcut : nextToken ("get".toList ++ c :: rest) =
      cut .word (nameLength 0 0 ("get".toList ++ c :: rest)) ("get".toList ++ c :: rest) := rfl
  rw [hcut, hn]
  rfl

/-- Both words are keywords with a blank behind them. -/
theorem staticGetLine_weaves {here rest : List Char} (h : Woven drops cs kept here) (hs : staticGetLine? here = some rest) :
    Woven drops cs kept rest := by
  unfold staticGetLine? at hs
  split at hs
  next => cases hs
  next hstatic =>
    obtain ⟨tail, rfl⟩ : "static".toList <+: here := by simpa using hstatic
    have hdrop : ("static".toList ++ tail).drop 6 = tail := List.drop_left' rfl
    simp only [hdrop] at hs
    split at hs
    next => cases hs
    next hget =>
      obtain ⟨hgap, after, hafter⟩ : tail.takeWhile isAsciiBlank ≠ [] ∧ "get".toList <+: tail.dropWhile isAsciiBlank := by
        simpa using hget
      -- the two words and the blanks between them are dropped, and nothing else is
      have htail : tail = tail.takeWhile isAsciiBlank ++ ("get".toList ++ after) := by
        rw [hafter, List.takeWhile_append_dropWhile]
      have hdrop' : ("get".toList ++ after).drop 3 = after := List.drop_left' rfl
      rw [← hafter, hdrop'] at hs
      split at hs
      next hline =>
        cases hs
        have hblanks : ∀ c ∈ tail.takeWhile isAsciiBlank, isAsciiBlank c = true :=
          List.all_eq_true.1 List.all_takeWhile
        obtain ⟨g, gs, hg⟩ := List.exists_cons_of_ne_nil hgap
        obtain ⟨c, after, rfl, hc⟩ : ∃ c after, rest = c :: after ∧ isAsciiBlank c = true := by
          cases rest with
          | nil => simp at hline
          | cons c after =>
            refine ⟨c, after, rfl, Decidable.byContradiction fun hc => ?_⟩
            simp [hc] at hline
        have hword : Woven drops cs kept tail := by
          rw [htail, hg] at h ⊢
          exact h.passed (.keyword (nextToken_static (hblanks g (by simp [hg])) _) rfl)
        have hskip : skipGap true tail = "get".toList ++ c :: after := by
          rw [htail]
          exact skip_blanks hblanks [] _
        exact (hskip ▸ hword.passed (.gap true tail)).passed (.keyword (nextToken_get hc after) rfl)
      next => cases hs

theorem modifier_weaves {mayBeField star : Bool} {w : String} (hk : isKeyword w = true) :
    Leads (Before drops cs kept) (modifier? mayBeField w star) fun _ => Before drops cs kept := by
  refine .isWord fun b => .ite (fun hb => ?_) fun _ => .pure fun _ h => h.1
  refine .get fun s h => ?_
  have hw : Woven drops cs kept s.rest := (h.1.keyword (h.2 hb) hk).woven
  have hnext (markup : Bool) : Before drops cs kept (.ofText markup s.rest) :=
    Past.before ⟨State.ofText_lexed markup s.rest, hw⟩
  exact .ite (fun _ => .set (hnext _) (.pure fun _ h => h)) fun _ => .pure fun _ he => he ▸ h.1

theorem modifiers_weaves {inClass : Bool} : Leads (Before drops cs kept) (modifiers inClass) fun _ => Before drops cs kept := by
  refine .textAhead fun s h => ?_
  have here {α : Type} {r : Read α} {Q : α → State → Prop} (hr : Leads (Before drops cs kept) r Q) :
      Leads (fun s' => s' = s) r Q :=
    .of (fun _ he => he ▸ h) hr
  split
  next rest hs =>
    have hrest : Past drops cs kept (.ofText false rest) := ⟨State.ofText_lexed false rest, staticGetLine_weaves h.woven hs⟩
    exact .resume hrest.before (.pure fun _ h => h)
  next =>
    refine here ?_
    refine .bind (modifier_weaves rfl) fun _ => ?_
    extract_lets finish afterAsync afterStatic named
    have hfinish (m : Modifiers) :
        Leads (Before drops cs kept) (finish () m) fun _ => Before drops cs kept := .pure fun _ h => h
    have hasync (m : Modifiers) : Leads (Before drops cs kept) (afterAsync () m) fun _ => Before drops cs kept := by
      refine .bind .mayPunct fun _ => .ite (fun _ => hfinish _) fun _ => ?_
      refine .bind (modifier_weaves rfl) fun _ => .ite (fun _ => hfinish _) fun _ => ?_
      exact .bind (modifier_weaves rfl) fun _ => .ite (fun _ => hfinish _) fun _ => hfinish _
    have hstatic (m : Modifiers) : Leads (Before drops cs kept) (afterStatic () m) fun _ => Before drops cs kept :=
      .bind (modifier_weaves rfl) fun _ => .ite (fun _ => hasync _) fun _ => hasync _
    exact .ite (fun _ => hstatic _) fun _ => hstatic _

/-! ### Objects -/

/-- A member keeps its leaves as a literal's and as a pattern's. -/
abbrev PastMember (drops : List Char → List Char → Prop) (cs : List Char) (kept : List String) (m : Member) (s : State) :
    Prop :=
  PastAny drops cs (fun ks => ∃ ls, (∃ t, (m.1 = some t ∨ m.2 = some t) ∧ ls = t.leaves) ∧ ks = kept ++ ls) s

/-- A pattern that is kept as its text. -/
theorem PastMember.verbatim {s : State} {text : String} (h : Past drops cs (kept ++ [text]) s) :
    PastMember drops cs kept (none, some (.mk (.verbatim text))) s := by
  refine .of_leaves h ?_
  rintro t (⟨⟨⟩⟩ | ⟨⟨⟩⟩)
  exact leaves_verbatim text

theorem arrayElements_filled {value : Item → Option Tree} {items : List (Option Item)} {es : List (Option Tree)}
    (h : arrayElements value items = some es) : (items.filterMap id).mapM value = some (es.filterMap id) := by
  induction items generalizing es with
  | nil =>
    cases h
    rfl
  | cons i items ih =>
    rw [arrayElements, List.mapM_cons] at h
    obtain ⟨e, he, hrest⟩ := Option.bind_eq_some_iff.1 h
    obtain ⟨es', hes, hall⟩ := Option.bind_eq_some_iff.1 hrest
    have hih := ih hes
    cases Option.some.inj hall
    cases i with
    | none =>
      cases he
      simpa using hih
    | some i =>
      obtain ⟨t, ht, rfl⟩ := Option.map_eq_some_iff.1 he
      change (i :: items.filterMap id).mapM value = some (t :: es'.filterMap id)
      rw [List.mapM_cons, ht, hih]
      rfl

/-- One of the ways to take all members. -/
inductive OfferMembers (ms : List Member) (ts : List Tree) : Prop
  | values : ms.mapM Prod.fst = some ts → OfferMembers ms ts
  | patterns : ms.mapM Prod.snd = some ts → OfferMembers ms ts

theorem OfferMembers.concat {ms : List Member} {m : Member} {ts : List Tree} (h : OfferMembers (ms ++ [m]) ts) :
    ∃ ts' t, OfferMembers ms ts' ∧ (m.1 = some t ∨ m.2 = some t) ∧ ts = ts' ++ [t] := by
  rcases h with h | h
  · obtain ⟨ts', t, hts, ht, rfl⟩ := mapM_concat h
    exact ⟨ts', t, .values hts, .inl ht, rfl⟩
  · obtain ⟨ts', t, hts, ht, rfl⟩ := mapM_concat h
    exact ⟨ts', t, .patterns hts, .inr ht, rfl⟩

/-- The members keep their leaves in each way to take them. -/
abbrev PastMembers (drops : List Char → List Char → Prop) (cs : List Char) (kept : List String) (ms : List Member) (s : State) :
    Prop :=
  PastAny drops cs (fun ks => ∃ ts, OfferMembers ms ts ∧ ks = kept ++ ts.flatMap leaves) s

section Members
variable {read : Readers} {fuel : Nat} {mode : Mode} (hread : WeaveReaders drops read)
include hread

theorem propertyName_weaves :
    Leads (Before drops cs kept) (propertyName read mode) fun key => Past drops cs (kept ++ key.tree.leaves) := by
  refine .peek fun token => ?_
  split
  next w => exact .advance (fun _ h => h.1.word h.2) (.pure fun _ h => by rwa [Key.tree, leaves_identifierTree])
  next raw => exact .advance (fun _ h => h.1.string h.2) (.pure fun _ h => by rwa [Key.tree, leaves_stringTree])
  next raw => exact .advance (fun _ h => h.1.number h.2) (.pure fun _ h => by rwa [Key.tree, leaves_numberTree])
  next name => exact .advance (fun _ h => h.1.privateName h.2) (.pure fun _ h => by rwa [Key.tree, leaves_privateIdentifier])
  next =>
    refine .advance (fun _ h => (h.1.punct h.2).before) (.bind (expressionTree_weaves hread) fun t => ?_)
    exact .pass fun _ => .pure fun _ h => h
  next => exact .failure

theorem methodRest_weaves {m : Modifiers} :
    Leads (Before drops cs kept) (methodRest read fuel m) fun t => Past drops cs (kept ++ t.leaves) := by
  refine .bind (parameters_weaves hread) fun params => .pass fun _ => ?_
  refine .bind (.here (block_weaves hread)) fun body => .pure fun _ h => ?_
  exact Past.func (n := .functionExpression _) (by simpa [PastFunction] using h) rfl rfl rfl

theorem decorator_onward : Leads (Facing cs) (decorator read fuel) fun _ => Onward cs := by
  have name : Leads (Onward cs) bindingName fun _ => Onward cs :=
    .of (fun _ h => h.facing) (.onward drops fun _ => bindingName_weaves)
  have called : Leads (Onward cs) (arguments read fuel) fun _ => Onward cs :=
    .of (fun _ h => h.facing) (.onward drops fun _ => arguments_weaves hread)
  refine .bind (.onward drops fun _ => .punct) fun _ => .bind name fun _ => .pass fun _ => ?_
  refine .bind (.collect (I := fun _ => Onward cs) (fun _ h => h) (fun _ => ?_) fuel) fun _ => ?_
  · refine .pass fun _ => .ite (fun _ => .bind name fun _ => .pass fun _ => .pure fun _ h => h) fun _ => .pure fun _ h => h
  · exact .look fun _ => .ite (fun _ => .bind called fun _ => .passed) fun _ => .pure fun _ h => h

/-- Decorators are dropped. -/
theorem decorators_weaves : Leads (Before drops cs kept) (decorators read fuel) fun _ => Before drops cs kept := by
  refine .bind (.collect (I := fun _ => Before drops cs kept) (fun _ h => h) (fun _ => ?_) fuel) fun _ => .pure fun _ h => h
  refine .look fun _ => .ite (fun _ => .bind (Q := fun _ => Before drops cs kept) ?_ fun _ => .pure fun _ h => h)
    fun _ => .pure fun _ h => h
  intro s _ s' h he
  have hon : Onward s.start s' := decorator_onward hread s _ s' ⟨h.lexed, List.suffix_refl _⟩ he
  exact Past.before ⟨hon.lexed, h.woven.dropped (hread.decorator fuel s s' h.lexed he) hon.suffix⟩

/-! ## Objects -/

theorem methodMember_weaves {m : Modifiers} {key : Key} :
    Leads (Before drops cs (kept ++ key.tree.leaves)) (methodMember read fuel m key) (PastMember drops cs kept) := by
  refine .bind (methodRest_weaves hread) fun value => .pure fun s h => ?_
  have hkept : Past drops cs (kept ++ (key.tree.leaves ++ value.leaves)) s := by simpa using h
  refine .of_leaves hkept ?_
  rintro t (⟨⟨⟩⟩ | ⟨⟨⟩⟩)
  exact leaves_property ..

theorem memberRest_weaves {plain : Bool} {m : Modifiers} {key : Key} :
    Leads (Past drops cs (kept ++ key.tree.leaves)) (memberRest read fuel mode plain m key) (PastMember drops cs kept) := by
  refine .pass fun _ => .peek fun token => ?_
  split
  next => exact .of (fun _ h => h.1.before) (methodMember_weaves hread)
  next =>
    refine .guardBind fun _ => .advance (fun _ h => (h.1.before.punct h.2).before)
      (.bind (item_weaves hread) fun i => .pure fun s h => ?_)
    refine h.mono ?_
    rintro _ ⟨_, ⟨t, ht, rfl⟩, rfl⟩
    have made : ∃ u, i.Offers u ∧ t = plainProperty key u := by
      rcases ht with ht | ht
      · obtain ⟨u, hu, rfl⟩ := Option.map_eq_some_iff.1 ht
        exact ⟨u, .argument (Item.argument_of_value hu), rfl⟩
      · obtain ⟨u, hu, rfl⟩ := Option.map_eq_some_iff.1 ht
        exact ⟨u, .element hu, rfl⟩
    obtain ⟨u, hu, rfl⟩ := made
    exact ⟨u.leaves, ⟨u, hu, rfl⟩, by simp [plainProperty, leaves_property]⟩
  next name =>
    refine .guardBind fun _ => .advance (fun _ h => (h.1.before.punct h.2).before)
      (.bind (expressionTree_weaves hread) fun value => ?_)
    refine .pure fun s h => ?_
    have hkept : Past drops cs (kept ++ name :: value.leaves) s := by simpa [Key.tree, leaves_identifierTree] using h
    refine .of_leaves hkept ?_
    rintro t (⟨⟨⟩⟩ | ⟨⟨⟩⟩)
    exact leaves_shorthandDefault name value
  next name _ _ _ =>
    refine .guardBind fun _ => .pure fun s h => ?_
    have hkept : Past drops cs (kept ++ [name]) s := by simpa [Key.tree, leaves_identifierTree] using h.1
    refine .of_leaves hkept ?_
    rintro t (⟨⟨⟩⟩ | ⟨⟨⟩⟩) <;> exact leaves_shorthand name
  next => exact .failure

theorem keyedMember_weaves : Leads (Before drops cs kept) (keyedMember read fuel mode) (PastMember drops cs kept) :=
  .bind (decorators_weaves hread) fun _ => .bind modifiers_weaves fun _ => .bind (propertyName_weaves hread) fun _ =>
    memberRest_weaves hread

theorem patternMember_weaves : Leads (Before drops cs kept) (patternMember read) (PastMember drops cs kept) := by
  refine .textAhead fun s h => ?_
  have hread : Leads (fun s' => s' = s) (read (.unary .inner)) (PastReading drops s.start []) :=
    .of (fun s' he => ⟨he ▸ h.lexed, he ▸ .start⟩) (hread.unary .inner s.start [])
  refine .bind hread fun r => ?_
  split
  next hr =>
    refine .of (fun s' h' => (h'.offer (.defaulted hr)).onward) ?_
    exact .bind (.sourceFrom h) fun text => .pure fun _ h => .verbatim h
  next => exact .failure

/-- A text in brackets is read to keep it, and to know where it ends. -/
theorem bracketMember_weaves : Leads (Before drops cs kept) (bracketMember read fuel mode) (PastMember drops cs kept) := by
  refine .textAhead fun s h => ?_
  have open_ : Leads (fun s' => s' = s) (punct "[") fun _ s' => Past drops cs kept s' ∧ Past drops s.start [] s' :=
    .of (fun s' he => ⟨he ▸ h, he ▸ h.lexed, he ▸ .start⟩) (.and .punct .punct)
  refine .bind open_ fun _ => .bind (.and (items_weaves hread) (items_weaves hread)) fun p => ?_
  refine .pass fun _ => .ite (fun _ => ?_) fun _ => ?_
  · refine .guardBind fun hes => ?_
    obtain ⟨es, hes⟩ := Option.isSome_iff_exists.1 hes
    have hoffer : OfferAll p.1 (es.filterMap id) := .elements (arrayElements_filled hes)
    refine .of (fun s' hs => (hs.2.past ⟨_, hoffer, rfl⟩).before) (.bind (expressionTree_weaves hread) fun _ => ?_)
    exact .of (fun _ h => h.onward) (.bind (.sourceFrom h) fun text => .pure fun _ h => .verbatim h)
  · split
    next i hp _ =>
      refine .requireBind fun v hv => .of (fun s' hs => ?_) (memberRest_weaves hread)
      have hoffer : OfferAll p.1 [v] := .arguments (by simp [hp, Item.argument_of_value hv])
      simpa [Key.tree] using hs.1.past ⟨[v], hoffer, rfl⟩
    next => exact .failure

theorem objectMember_weaves : Leads (Before drops cs kept) (objectMember read fuel mode) (PastMember drops cs kept) := by
  refine .peek fun token => ?_
  split
  next =>
    refine .advance (fun _ h => (h.1.punct h.2).before) (.bind (hread.expression mode cs kept) fun r => .pure fun s h => ?_)
    refine h.mono ?_
    rintro _ ⟨_, ⟨t, ht, rfl⟩, rfl⟩
    rcases ht with ht | ht
    · obtain ⟨u, hu, rfl⟩ := Option.map_eq_some_iff.1 ht
      obtain ⟨v, hv, rfl⟩ := Option.map_eq_some_iff.1 hu
      exact ⟨_, ⟨v, .expression hv, rfl⟩, by rw [leaves_spreadElement, leaves_closeChain]⟩
    · obtain ⟨u, hu, rfl⟩ := Option.map_eq_some_iff.1 ht
      exact ⟨_, ⟨u, .pattern hu, rfl⟩, by rw [leaves_restElement]⟩
  next => exact .of (fun _ h => h.1) (patternMember_weaves hread)
  next => exact .of (fun _ h => h.1) (bracketMember_weaves hread)
  next => exact .of (fun _ h => h.1) (keyedMember_weaves hread)

theorem objectMembers_weaves {first later : Mode} (n place : Nat) (acc : List Member) :
    Leads (PastMembers drops cs kept acc.reverse) (objectMembers read fuel first later n place acc)
      (PastMembers drops cs kept) := by
  induction n generalizing place acc with
  | zero => exact .failure
  | succ n ih =>
    refine .pass fun _ => .ite (fun _ => .pure fun _ h => h) fun _ => ?_
    refine .pass fun _ => .ite (fun _ => ih _ _) fun _ => ?_
    refine .bind (.any fun _ _ => objectMember_weaves hread) fun m => ?_
    have grown (s : State)
        (h : PastAny drops cs (fun ks => ∃ ks' ls, (∃ ts, OfferMembers acc.reverse ts ∧ ks' = kept ++ ts.flatMap leaves) ∧
          (∃ t, (m.1 = some t ∨ m.2 = some t) ∧ ls = t.leaves) ∧ ks = ks' ++ ls) s) :
        PastMembers drops cs kept (m :: acc).reverse s := by
      refine h.mono ?_
      rintro _ ⟨ts, hts, rfl⟩
      rw [List.reverse_cons] at hts
      obtain ⟨ts', t, hts', ht, rfl⟩ := hts.concat
      exact ⟨_, _, ⟨ts', hts', rfl⟩, ⟨t, ht, rfl⟩, by simp⟩
    exact .of grown (.pass fun _ => .ite (fun _ => ih _ _) fun _ => .pass fun _ => .pure fun _ h => h)

theorem object_weaves {first later : Mode} :
    Leads (Before drops cs kept) (object read fuel first later) (PastReading drops cs kept) := by
  have start (s : State) (h : Past drops cs kept s) : PastMembers drops cs kept ([] : List Member).reverse s := by
    refine ⟨h.lexed, ?_⟩
    rintro _ ⟨ts, hts | hts, rfl⟩
    · cases hts
      simpa using h.woven
    · cases hts
      simpa using h.woven
  refine .bind .punct fun _ => .bind (.of start (objectMembers_weaves hread fuel 0 [])) fun ms => ?_
  refine .pure fun s h => h.mono ?_
  rintro _ ⟨_, ⟨t, ht, rfl⟩, rfl⟩
  have hleaves : ∃ ts, OfferMembers ms ts ∧ t.leaves = ts.flatMap leaves := by
    rcases ht with ht | ht | ht | ht
    · obtain ⟨ts, hts, rfl⟩ := Option.map_eq_some_iff.1 ht
      exact ⟨ts, .values hts, leaves_objectExpression ts⟩
    · obtain ⟨ts, hts, rfl⟩ := Option.map_eq_some_iff.1 ht
      exact ⟨ts, .patterns hts, leaves_objectPattern ts⟩
    · cases ht
    · obtain ⟨ts, hts, rfl⟩ := Option.map_eq_some_iff.1 ht
      exact ⟨ts, .patterns hts, leaves_objectPattern ts⟩
  obtain ⟨ts, hts, hleaves⟩ := hleaves
  exact ⟨ts, hts, by rw [hleaves]⟩

theorem array_weaves {first later : Mode} :
    Leads (Before drops cs kept) (array read fuel first later) (PastReading drops cs kept) := by
  refine .bind .punct fun _ => .bind (items_weaves hread) fun p => .pure fun s h => h.mono ?_
  rintro _ ⟨_, ⟨t, ht, rfl⟩, rfl⟩
  have hleaves : ∃ ts, OfferAll p.1 ts ∧ t.leaves = ts.flatMap leaves := by
    rcases ht with ht | ht | ht | ht
    · obtain ⟨es, hes, rfl⟩ := Option.map_eq_some_iff.1 ht
      exact ⟨_, .arguments (arrayElements_filled hes), leaves_arrayExpression es⟩
    · obtain ⟨es, hes, rfl⟩ := Option.map_eq_some_iff.1 ht
      exact ⟨_, .elements (arrayElements_filled hes), leaves_arrayPattern es⟩
    · cases ht
    · obtain ⟨es, hes, rfl⟩ := Option.map_eq_some_iff.1 ht
      exact ⟨_, .elements (arrayElements_filled hes), leaves_arrayPattern es⟩
  obtain ⟨ts, hts, hleaves⟩ := hleaves
  exact ⟨ts, hts, by rw [hleaves]⟩

/-! ## Classes -/

theorem classMember_weaves :
    Leads (Before drops cs kept) (classMember read fuel) fun o => Past drops cs (kept ++ o.toList.flatMap leaves) := by
  refine .textAhead fun s h => .look fun next => .ifPunct (fun _ he => he ▸ h) (.pure (by simp)) ?_
  refine .look fun _ => .ite (fun _ => ?_) fun _ => .of (fun _ he => he ▸ h) ?_
  · have here : Facing s.start s := ⟨h.lexed, List.suffix_refl _⟩
    refine .advance (S := Onward s.start) (fun _ he => he ▸ here.next) ?_
    refine .bind (.of (fun _ => Onward.facing) (.onward drops fun _ => block_weaves hread)) fun _ => ?_
    exact .bind (.sourceFrom h) fun text => .pure fun _ h => by simpa [leaves_verbatim] using h
  · refine .bind (decorators_weaves hread) fun _ => .bind modifiers_weaves fun m => ?_
    refine .bind (propertyName_weaves hread) fun key => ?_
    extract_lets mayBeField field withValue member named
    have hfield (value : Option Tree) :
        Leads (Past drops cs (kept ++ key.tree.leaves ++ value.toList.flatMap leaves)) (field value)
        fun o => Past drops cs (kept ++ o.toList.flatMap leaves) := by
      refine .pass fun _ => .pure fun s h => ?_
      have hnode : Past drops cs (kept ++ leaves (.mk (.propertyDefinition key.tree value key.isComputed m.isStatic))) s :=
        h.node (by simp [Node.children, Node.fields]) rfl rfl
      simpa using hnode
    have hvalue (b : Bool) : Leads (Past drops cs (kept ++ key.tree.leaves)) (withValue b)
        fun o => Past drops cs (kept ++ o.toList.flatMap leaves) := by
      refine .ite (fun _ => .bind (.map ?_) hfield) fun _ => .bind (.pure (by simp)) hfield
      exact .here (.mono (expressionTree_weaves hread) (by simp))
    have hmember (ends : Bool) : Leads (Past drops cs (kept ++ key.tree.leaves)) (member ends)
        fun o => Past drops cs (kept ++ o.toList.flatMap leaves) := by
      refine .look fun _ => .ite (fun _ => ?_) fun _ => .guardBind fun _ => ?_
      · refine .next (methodRest_weaves hread) fun value => .pass fun _ => .pure fun s h => ?_
        have hnode : Past drops cs (kept ++ leaves (.mk (.methodDefinition key.tree value (methodKind m key) key.isComputed
            m.isStatic))) s := h.node (by simp [Node.children, Node.fields]) rfl rfl
        simpa using hnode
      · exact .ite (fun _ => .bind (.pure fun _ h => h) hvalue) fun _ => .bind .passed hvalue
    have hnamed (u : Unit) : Leads (Past drops cs (kept ++ key.tree.leaves)) (named u)
        fun o => Past drops cs (kept ++ o.toList.flatMap leaves) :=
      .ite (fun _ => .look hmember) fun _ => .bind (.pure fun _ h => h) hmember
    exact .ite (fun _ => .bind .passed hnamed) fun _ => hnamed ()

theorem classBody_weaves : Leads (Before drops cs kept) (classBody read fuel) fun t => Past drops cs (kept ++ t.leaves) := by
  refine .bind .punct fun _ => ?_
  refine .bind (.collect (I := fun ms => Past drops cs (kept ++ (ms.filterMap id).flatMap leaves))
    (by simp) (fun ms => ?_) fuel) fun ms => ?_
  · refine .ifPunct (fun _ h => h.before) (.pure (by simp)) (.map (.here (.mono (classMember_weaves hread) ?_)))
    intro o s h
    cases o with
    | none => simpa using h
    | some t => simpa using h
  · exact .pure fun _ h => h.node (by simp [Node.children, Node.fields]) rfl rfl

/-- The parts of a class keep their leaves. -/
abbrev PastClass (drops : List Char → List Char → Prop) (cs : List Char) (kept : List String) (c : ClassParts Tree) :
    State → Prop :=
  Past drops cs (kept ++ (c.id.toList ++ c.superClass.toList ++ [c.body]).flatMap leaves)

theorem classRest_weaves {named : Bool} :
    Leads (Before drops cs kept) (classRest read fuel named) (PastClass drops cs kept) := by
  refine .bind (.word (by decide)) fun _ => .peek fun token => ?_
  extract_lets rest
  have hrest (id : Option Tree) :
      Leads (Past drops cs (kept ++ id.toList.flatMap leaves)) (rest id) (PastClass drops cs kept) := by
    have parts (superClass : Option Tree) :
        Leads (Past drops cs (kept ++ id.toList.flatMap leaves ++ superClass.toList.flatMap leaves)) (do
          let body ← classBody read fuel
          return { id := id, superClass := superClass, body := body }) (PastClass drops cs kept) :=
      .bind (.here (classBody_weaves hread)) fun body => .pure fun s h => by simpa [PastClass] using h
    have heir (e : Tree) : Leads (Past drops cs (kept ++ id.toList.flatMap leaves ++ e.leaves)) (do
        let body ← classBody read fuel
        return { id := id, superClass := some e, body := body }) (PastClass drops cs kept) := by simpa using parts (some e)
    have await_ : leaves (identifierTree "await") = ["await"] := leaves_identifierTree "await"
    refine .pass fun _ => .ifWord (by decide) (fun _ h => h.before) (.here ?_) (by simpa using parts none)
    refine .look fun _ => .look fun _ => .ite (fun _ => .orElse ?_ ?_) fun _ => ?_
    · exact .bind (expressionTree_weaves hread) heir
    · exact .bind (.mono .nameWord fun _ _ h => by rwa [await_]) fun _ => heir (identifierTree "await")
    · exact .bind (expressionTree_weaves hread) heir
  have anonymous : Leads (fun s => Past drops cs kept s ∧ s.token = token)
      (if named = true then failure >>= rest else pure none >>= rest) (PastClass drops cs kept) :=
    .ite (fun _ => .bind .failure hrest) fun _ => .bind (.pure fun s h => by simpa using h.1) hrest
  split
  next => exact anonymous
  next => exact .bind (.map (.of (fun _ h => h.1.before) (.mono bindingName_weaves (by simp)))) hrest
  next => exact anonymous

end Members
end Graft.Source
