import Graft.Proofs.Source.Weave.Members
import Graft.Source.Await
/-!
# Operands are woven from their leaves

What an operator can stand beside. Where a construct is kept as source text, its reader goes on from where the text begins, so
that the text is the leaf.
-/

namespace Graft.Source

open Read Graft.Tree

variable {drops : List Char → List Char → Prop} {cs : List Char} {kept : List String}

/-! ## Regular expressions -/

theorem patternAhead_suffix (bound text : List Char) : patternAhead bound text <:+ text := by
  induction bound generalizing text with
  | nil => exact List.suffix_refl text
  | cons c bound ih =>
    rw [patternAhead]
    split
    next rest h => exact (ih rest).trans (dropComment_suffix h)
    next => exact List.suffix_refl text

theorem closingAhead_suffix {bound text rest : List Char} (h : closingAhead? bound text = some rest) : rest <:+ text := by
  induction bound generalizing text with
  | nil => cases h
  | cons c bound ih =>
    unfold closingAhead? at h
    split at h
    next => contradiction
    next =>
      cases h
      exact List.suffix_cons _ _
    next bound' _ _ hb _ =>
      cases hb
      obtain ⟨after, hc, hafter⟩ := Option.bind_eq_some_iff.1 h
      exact (ih hafter).trans (dropComment_suffix hc)

theorem flagsAhead_suffix {mode : Mode} {bound text rest : List Char} (h : flagsAhead? mode bound text = some rest) :
    rest <:+ text := by
  induction bound generalizing text with
  | nil => cases h
  | cons c bound ih =>
    rw [flagsAhead?] at h
    split at h
    next =>
      cases h
      exact List.suffix_refl _
    next =>
      split at h
      next => cases h
      next =>
        obtain ⟨after, hc, hafter⟩ := Option.bind_eq_some_iff.1 h
        exact (ih hafter).trans (dropComment_suffix hc)

theorem regex_weaves {mode : Mode} : Leads (Before drops cs kept) (regex mode) (PastReading drops cs kept) := by
  refine .textAhead fun s h => ?_
  extract_lets body
  refine .requireBind fun n _ => .requireBind fun after hafter => ?_
  extract_lets flagged flags value
  have hbody : body <:+ s.start := (patternAhead_suffix _ _).trans (List.drop_suffix 1 s.start)
  have hflagged : flagged <:+ after := by
    cases hf : flagsAhead? mode after after with
    | none => simp [flagged, hf]
    | some rest => simpa [flagged, hf] using flagsAhead_suffix hf
  have hrest : flagged.drop flags.length <:+ s.start :=
    (List.drop_suffix _ _).trans (hflagged.trans ((closingAhead_suffix hafter).trans ((List.drop_suffix n body).trans hbody)))
  refine .resume (S := Onward s.start) ⟨State.ofText_lexed _ _, hrest⟩ (.bind (.sourceFrom h) fun text => .pure fun _ h => ?_)
  exact .ofExpression (by simpa [leaves_literal] using h)

section Operands
variable {read : Readers} {fuel : Nat} {mode : Mode} (hread : WeaveReaders drops read)
include hread

/-! ## Members and calls -/

omit hread in
theorem memberName_weaves : Leads (Before drops cs kept) memberName fun t => Past drops cs (kept ++ t.leaves) := by
  refine .get fun s h => .resume (S := fun s' => s' = .ofText false s.rest) rfl ?_
  have hnext {text : String} (hn :
      Past drops cs (kept ++ [text]) s.next) : Past drops cs (kept ++ [text]) (.ofText false s.rest) :=
    ⟨State.ofText_lexed _ _, hn.woven⟩
  split
  next w hw => exact .pure fun _ he => he ▸ leaves_identifierTree w ▸ hnext (h.word hw)
  next name hn => exact .pure fun _ he => he ▸ leaves_privateIdentifier name ▸ hnext (h.privateName hn)
  next => exact .failure

theorem indexed_weaves {object : Tree} {optional : Bool} :
    Leads (Before drops cs (kept ++ object.leaves)) (indexed read fuel object optional) (PastReading drops cs kept) := by
  refine .bind .punct fun _ => .bind (.here (expressions_weaves hread)) fun i => .pass fun _ => .pure fun s h => ?_
  exact .ofReference (h.node (by simp [Node.children, Node.fields]) rfl rfl)

theorem called_weaves {callee : Tree} {optional : Bool} :
    Leads (Before drops cs (kept ++ callee.leaves)) (called read fuel callee optional) (PastReading drops cs kept) :=
  .bind (arguments_weaves hread) fun args => .pure fun s h => .ofExpression (h.node (by simp [Node.children, Node.fields]) rfl rfl)

/-! ## Operands -/

omit hread in
theorem mapM_of_imp {α β : Type} {f g : α → Option β} (h : ∀ a b, f a = some b → g a = some b) {as : List α} {bs : List β}
    (hf : as.mapM f = some bs) : as.mapM g = some bs := by
  induction as generalizing bs with
  | nil => exact hf
  | cons a as ih =>
    rw [List.mapM_cons] at hf
    obtain ⟨b, hb, hrest⟩ := Option.bind_eq_some_iff.1 hf
    obtain ⟨bs', hbs, hall⟩ := Option.bind_eq_some_iff.1 hrest
    simp [h a b hb, ih hbs, ← Option.some.inj hall]

omit hread in
/-- Expressions between commas are taken as arguments are. -/
theorem PastItems.values {items : List (Option Item)} {s : State} (h : PastItems drops cs kept items s)
    (hne : (items.mapM fun (i : Option Item) => i.bind Item.value?).getD [] ≠ []) :
    Past drops cs (kept ++ ((items.mapM fun (i : Option Item) => i.bind Item.value?).getD []).flatMap leaves) s := by
  cases hes : items.mapM fun (i : Option Item) => i.bind Item.value? with
  | none => simp [hes] at hne
  | some es => exact h.arguments (mapM_of_imp (fun _ _ => Item.argument_of_value) (mapM_filled hes))

theorem parenthesized_weaves : Leads (Before drops cs kept) (parenthesized read fuel mode) (PastReading drops cs kept) := by
  refine .bind .punct fun _ => .bind (items_weaves hread) fun p => ?_
  split
  next items trailing =>
  extract_lets es rest
  have hes (s : State) (h : PastItems drops cs kept items s) (hne : es ≠ []) :
      Past drops cs (kept ++ es.flatMap leaves) s := h.values hne
  clear_value es
  have hrest (u : Unit) : Leads (PastItems drops cs kept items) (rest u) (PastReading drops cs kept) := by
    refine .look fun _ => .ite (fun _ => .requireBind fun ps hps => ?_) fun _ => .guardBind fun _ => ?_
    · exact .of (fun _ h => (h.parameters hps).before) (arrowRest_weaves hread)
    · split
      next => exact .failure
      next e => exact .pure fun s h => .ofParenthesized (by simpa using hes s h (by simp))
      next hne _ => exact .pure fun s h => .ofParenthesized ((hes s h hne).node (by simp [Node.children, Node.fields]) rfl rfl)
  exact .ite (fun _ => .pass fun _ => hrest ()) fun _ => hrest ()

theorem nameOperand_weaves {name : String} :
    Leads (fun s => Before drops cs kept s ∧ (s.token = .word name ∨ s.token = .name name)) (nameOperand read fuel mode name)
      (PastReading drops cs kept) := by
  have hname (s : State) (h : Before drops cs kept s ∧ (s.token = .word name ∨ s.token = .name name)) :
      Past drops cs (kept ++ (identifierTree name).leaves) s.next := by
    rw [leaves_identifierTree]
    rcases h.2 with ht | ht
    · exact h.1.word ht
    · exact h.1.name ht
  refine .advance hname
    (.ite (fun _ => .pure fun s h => ?_) fun _ => .look fun _ => .look fun _ => .ite (fun _ => ?_) fun _ => ?_)
  · refine .of_leaves h fun u hu => ?_
    rcases hu with ⟨⟨⟩⟩ | ⟨⟨⟩⟩ | ⟨⟨⟩⟩ | ⟨⟨⟩⟩ <;> rfl
  · exact .of (fun _ h => by simpa using h.before) (arrowRest_weaves hread)
  · exact .pure fun s h => .ofReference h

/-- The word may be a keyword or a name: the text is woven in both ways until it is settled. -/
theorem async_weaves {calls : Bool} :
    Leads (fun s => Before drops cs kept s ∧ s.token = .word "async") (async read fuel mode calls)
      (PastReading drops cs kept) := by
  have hname : (identifierTree "async").leaves = ["async"] := leaves_identifierTree "async"
  have name : Leads (fun s => Past drops cs kept s ∧ Past drops cs (kept ++ ["async"]) s)
      (pure (.ofReference (identifierTree "async"))) (PastReading drops cs kept) :=
    .pure fun s h => .ofReference (by rw [hname]; exact h.2)
  refine .advance (S := fun s => Past drops cs kept s ∧ Past drops cs (kept ++ ["async"]) s)
    (fun s h => ⟨h.1.keyword h.2 rfl, h.1.word h.2⟩) ?_
  refine .look fun _ => .ite (fun _ => name) fun _ => .peek fun token => ?_
  split
  next =>
    refine .of (fun _ h => h.1.1.before) (.bind (functionRest_weaves hread) fun f => .pure fun s h => ?_)
    exact .ofExpression (Past.func (n := .functionExpression f) h rfl rfl rfl)
  next w =>
    refine .look fun next => .ite (fun _ => .of (fun _ h => h.1) name) fun _ => ?_
    refine .advance (fun s h => h.1.1.before.word h.2) (.pass fun _ => .of (fun _ h => ?_) (arrowRest_weaves hread))
    simpa [leaves_identifierTree] using h.before
  next =>
    refine .get fun s h => .of (fun s' he => he ▸ h) ?_
    refine .advance (S := fun s => Past drops cs kept s ∧ Past drops cs (kept ++ ["async"]) s)
      (fun _ h => ⟨h.1.1.before.punct h.2, h.1.2.before.punct h.2⟩) ?_
    refine .bind (.and (items_weaves hread) (items_weaves hread)) fun p => ?_
    split
    next items _ =>
    extract_lets rest
    have hrest (u : Unit) :
        Leads (fun s => PastItems drops cs kept items s ∧ PastItems drops cs (kept ++ ["async"]) items s) (rest u)
        (PastReading drops cs kept) := by
      refine .look fun _ => .ite (fun _ => .requireBind fun ps hps => ?_)
        fun _ => .ite (fun _ => .requireBind fun args hargs => ?_) fun _ => ?_
      · exact .of (fun _ h => (h.1.parameters hps).before) (arrowRest_weaves hread)
      · refine .pure fun s h => .ofExpression ((h.2.arguments hargs).node ?_ rfl rfl)
        simp [Node.children, Node.fields, hname]
      · exact .set h.1 name
    exact .ite (fun _ => .pass fun _ => hrest ()) fun _ => hrest ()
  next =>
    refine .of (fun _ h => ?_) (arrowRest_weaves hread)
    simpa [hname] using h.1.2.before
  next => exact .of (fun _ h => h.1) name

omit hread in
theorem leaves_this : leaves (.mk .thisExpression) = ["this"] := by
  simp [leaves_eq (.mk .thisExpression), node, Node.leafText?, shown, Node.children, Node.fields]

omit hread in
theorem leaves_super : leaves (.mk .super) = ["super"] := by
  simp [leaves_eq (.mk .super), node, Node.leafText?, shown, Node.children, Node.fields]

omit hread in
theorem PastReading.verbatim {text : String} {kind : OperandKind} {s : State} (h : Past drops cs (kept ++ [text]) s) :
    PastReading drops cs kept (.ofExpression (.mk (.verbatim text)) kind) s := .ofExpression (by rwa [leaves_verbatim])

theorem wordOperand_weaves {calls : Bool} {w : String} :
    Leads (fun s => Before drops cs kept s ∧ s.token = .word w) (wordOperand read fuel mode calls w)
      (PastReading drops cs kept) := by
  have literal (value : LiteralValue) : Leads (fun s => Before drops cs kept s ∧ s.token = .word w)
      (do advance; return .ofExpression (.mk (.literal value w)) .primary) (PastReading drops cs kept) :=
    .advance (fun _ h => h.1.word h.2) (.pure fun _ h => .ofExpression (by rwa [leaves_literal]))
  unfold wordOperand
  split
  next => exact .advance (fun _ h => h.1.word h.2) (.pure fun _ h => .ofExpression (by rwa [leaves_this]))
  next => exact .advance (fun _ h => h.1.word h.2) (.pure fun _ h => .ofExpression (by rwa [leaves_super]))
  next => exact literal _
  next => exact literal _
  next => exact literal _
  next =>
    refine .of (fun _ h => h.1) (.bind (functionRest_weaves hread) fun f => .pure fun _ h => ?_)
    exact .ofExpression (Past.func (n := .functionExpression f) h rfl rfl rfl)
  next =>
    refine .of (fun _ h => h.1) (.bind (classRest_weaves hread) fun c => .pure fun _ h => .ofExpression (h.node ?_ rfl rfl))
    simp [Node.children, Node.fields, ClassParts.fields]
  next => exact async_weaves hread
  next =>
    have himport : leaves (.mk (.verbatim "import")) = ["import"] := leaves_verbatim "import"
    refine .textAhead fun s h => ?_
    have here : Facing s.start s := ⟨h.1.lexed, List.suffix_refl _⟩
    refine .advance (S := fun s' => Past drops cs (kept ++ ["import"]) s' ∧ Onward s.start s') ?_ ?_
    · rintro s' rfl
      exact ⟨h.1.word h.2, here.next⟩
    refine .look fun _ => .look fun _ => .ite (fun _ => .of (fun _ h => h.2) ?_) fun _ => .of (fun _ h => h.1) ?_
    · refine .advance (fun _ h => h.facing.next) (.advance (fun _ h => h.facing.next) ?_)
      exact .bind (.sourceFrom h.1) fun text => .pure fun _ h => .verbatim h
    · refine .ifPunct (fun _ h => h.before) (.next memberName_weaves fun name => .pure fun _ h => ?_) ?_
      · exact .ofReference (h.node (by simp [Node.children, Node.fields, himport]) rfl rfl)
      · exact .of (fun _ h => by simpa [himport] using h.before) (called_weaves hread)
  next => exact .guardBind fun _ => .of (fun _ h => ⟨h.1, .inl h.2⟩) (nameOperand_weaves hread)

theorem primary_weaves {calls : Bool} :
    Leads (Before drops cs kept) (primary read fuel mode calls) (PastReading drops cs kept) := by
  refine .textAhead fun s h => .peek fun token => ?_
  have here {α : Type} {r : Read α} {Q : α → State → Prop} (hr : Leads (Before drops cs kept) r Q) :
      Leads (fun s' => s' = s ∧ s'.token = token) r Q := .of (fun _ he => he.1 ▸ h) hr
  have facing (s' : State) (he : s' = s ∧ s'.token = token) : Facing s.start s' := by
    cases he.1
    exact ⟨h.lexed, List.suffix_refl _⟩
  split
  next w => exact .of (fun _ he => ⟨he.1 ▸ h, he.2⟩) (wordOperand_weaves hread)
  next w => exact .of (fun _ he => ⟨he.1 ▸ h, .inr he.2⟩) (nameOperand_weaves hread)
  next raw =>
    exact .advance (fun _ he => (he.1 ▸ h).number he.2) (.pure fun _ h => .ofExpression (by rwa [leaves_numberTree]))
  next raw =>
    exact .advance (fun _ he => (he.1 ▸ h).string he.2) (.pure fun _ h => .ofExpression (by rwa [leaves_stringTree]))
  next =>
    refine .bind (.of facing (template_onward hread)) fun _ => ?_
    exact .bind (.sourceFrom h) fun text => .pure fun _ h => .verbatim h
  next => exact here (parenthesized_weaves hread)
  next => exact here (array_weaves hread)
  next => exact here (object_weaves hread)
  next => exact here regex_weaves
  next => exact here regex_weaves
  next =>
    refine here (.bind (decorators_weaves hread) fun _ => .bind (classRest_weaves hread) fun c => .pure fun _ h => ?_)
    exact .ofExpression (h.node (by simp [Node.children, Node.fields, ClassParts.fields]) rfl rfl)
  next =>
    refine .bind (.of facing (hread.markup s.start)) fun rest => ?_
    intro s₁ _ s₂ hrest he
    cases he
    exact .verbatim ⟨State.ofText_lexed false rest, h.woven.slice hrest⟩
  next => exact .failure

/-! ## Chains -/

omit hread in
theorem updated_weaves {r : Reading} {operator : String} :
    Leads (fun s => PastReading drops cs kept r s ∧ s.token = .punct operator) (updated r operator)
      (PastReading drops cs kept) := by
  refine .requireBind fun e he => .advance (fun s h => ((h.1.closed he).before.punct h.2)) (.pure fun s h => .ofExpression ?_)
  exact h.node (by simp [Node.children, Node.fields]) rfl rfl

/-- What follows an operand is read from where the operand begins, so that a template with it is one leaf. -/
theorem suffixes_weaves {start : List Char} {calls updates : Bool} (n : Nat) {r : Reading} :
    Leads (PastReading drops start [] r) (suffixes read fuel mode start calls updates n r) (PastReading drops start []) := by
  induction n generalizing r with
  | zero => exact .failure
  | succ n ih =>
    refine .look fun _ => .ite (fun _ => .pure fun _ h => h) fun _ => .peek fun token => ?_
    have unchanged : Leads (fun s => PastReading drops start [] r s ∧ s.token = token) (pure r) (PastReading drops start []) :=
      .pure fun _ h => h.1
    have member {e : Tree} {optional : Bool} : Leads (Past drops start ([] ++ e.leaves)) (do
        let name ← memberName
        suffixes read fuel mode start calls updates n (.ofReference (.mk (.memberExpression e name false optional))))
        (PastReading drops start []) := by
      refine .next memberName_weaves fun name => ?_
      exact .of (fun s h => .ofReference (h.node (by simp [Node.children, Node.fields]) rfl rfl)) ih
    split
    next e he => exact .advance (fun s h => (h.1.offer (.expression he)).before.punct h.2) member
    next e he =>
      refine .advance (fun s h => (h.1.offer (.expression he)).before.punct h.2) (.peek fun token => ?_)
      split
      next => exact .of (fun _ h => h.1.before) (.bind (indexed_weaves hread) fun _ => ih)
      next => exact .guardBind fun _ => .of (fun _ h => h.1.before) (.bind (called_weaves hread) fun _ => ih)
      next => exact .of (fun _ h => h.1) member
    next e he => exact .of (fun _ h => (h.1.offer (.expression he)).before) (.bind (indexed_weaves hread) fun _ => ih)
    next e he =>
      exact .ite (fun _ => .of (fun _ h => (h.1.offer (.expression he)).before) (.bind (called_weaves hread) fun _ => ih))
        fun _ => unchanged
    next e he =>
      refine .guardBind fun _ => .of (fun _ h => (h.1.offer (.expression he)).onward.facing) ?_
      exact .bind (template_onward hread) fun _ => .bind .sourceTaken fun text => .of (fun s h => .verbatim h) ih
    next => exact .ite (fun _ => .bind updated_weaves fun _ => ih) fun _ => unchanged
    next => exact .ite (fun _ => .bind updated_weaves fun _ => ih) fun _ => unchanged
    next => exact unchanged

omit hread in
/-- What is read from a point on is kept behind all that was kept before. -/
theorem PastReading.behind {start : List Char} {r : Reading} {s : State} (h : PastReading drops start [] r s)
    (hw : Woven drops cs kept start) : PastReading drops cs kept r s := by
  refine ⟨h.lexed, ?_⟩
  rintro _ ⟨ls, hls, rfl⟩
  exact hw.trans (h.woven ls ⟨ls, hls, rfl⟩)

theorem construction_weaves (n : Nat) :
    Leads (Before drops cs kept) (construction read fuel mode n) (PastReading drops cs kept) := by
  induction n generalizing cs kept with
  | zero => exact .failure
  | succ n ih =>
    refine .textAhead fun s h => .of (S := fun s' => s' = s) (P := fun s' => Before drops cs kept s' ∧ Facing s.start s') ?_ ?_
    · rintro s' rfl
      exact ⟨h, h.lexed, List.suffix_refl _⟩
    refine .bind (.and (.word (by decide)) .onwardWord) fun _ => .look fun _ => .ite (fun _ => ?_) fun _ => ?_
    · refine .advance (fun _ h => h.2.facing.next) (.bind (.of (fun _ h => h.facing) .onwardWord) fun _ => ?_)
      exact .bind (.sourceFrom h) fun text => .pure fun _ h => .verbatim h
    · refine .textAhead fun s' h' => ?_
      -- what comes after `new` is read as a text of its own and joined to what was before
      have hstart : Woven drops cs kept s'.start := h'.1.before.woven
      have here : Before drops s'.start [] s' := ⟨h'.1.lexed, .start⟩
      generalize s'.start = start at hstart here ⊢
      extract_lets goOn finish
      have hgoOn (r : Reading) :
          Leads (PastReading drops start [] r) (goOn r) (PastReading drops start []) := suffixes_weaves hread fuel
      have hfinish (r : Reading) : Leads (PastReading drops start [] r) (finish r) (PastReading drops cs kept) := by
        refine .guardBind fun _ => .requireBind fun callee hcallee => .look fun _ => .look fun _ => ?_
        have hnew (args : List Tree) (s : State) (h : Past drops cs (kept ++ callee.leaves ++ args.flatMap leaves) s) :
            PastReading drops cs kept (.ofExpression (.mk (.newExpression callee args)) .construction) s :=
          .ofExpression (h.node (by simp [Node.children, Node.fields]) rfl rfl)
        refine .of (fun _ h => (h.behind hstart).closed hcallee)
          (.ite (fun _ => ?_) fun _ => .bind (.pure (by simp)) fun args => .pure (hnew args))
        exact .next (arguments_weaves hread) fun args => .pure (hnew args)
      refine .of (fun _ he => he ▸ here) (.look fun _ => .ite (fun _ => ?_) fun _ => ?_)
      · refine .bind ih fun r => .look fun _ => .look fun _ => .ite (fun _ => .bind (hgoOn r) hfinish) fun _ => ?_
        exact .bind (.pure fun _ h => h) hfinish
      · refine .bind (primary_weaves hread) fun r => .look fun _ => .ite (fun _ => ?_) fun _ => .bind (hgoOn r) hfinish
        refine .requireBind fun callee hcallee => .of (fun _ h => (h.closed hcallee).before) ?_
        exact .bind (called_weaves hread) fun r => .bind (hgoOn r) hfinish

theorem operand_weaves {updates : Bool} :
    Leads (Before drops cs kept) (operand read fuel mode updates) (PastReading drops cs kept) := by
  refine .textAhead fun s h => ?_
  have here : Before drops s.start [] s := ⟨h.lexed, .start⟩
  have first (r : Reading) : Leads (PastReading drops s.start [] r) (suffixes read fuel mode s.start true updates fuel r)
      (PastReading drops cs kept) := .mono (suffixes_weaves hread fuel) fun _ _ hr => hr.behind h.woven
  refine .of (P := Before drops s.start []) (fun _ he => he ▸ here) (.look fun _ => .ite (fun _ => ?_) fun _ => ?_)
  · exact .bind (construction_weaves hread fuel) first
  · exact .bind (primary_weaves hread) first

/-! ## Assignments -/

omit hread in
theorem leaves_assignmentExpression (operator : String) (left right : Tree) :
    leaves (.mk (.assignmentExpression operator left right)) = left.leaves ++ right.leaves := by
  simp [leaves_node (n := .assignmentExpression operator left right) rfl rfl, Node.children, Node.fields]

omit hread in
theorem leaves_assignmentPattern (left right : Tree) :
    leaves (.mk (.assignmentPattern left right)) = left.leaves ++ right.leaves := by
  simp [leaves_node (n := .assignmentPattern left right) rfl rfl, Node.children, Node.fields]

omit hread in
theorem computing_punct {t : Token} {operator : String} (h : computingAssignment? t = some operator) : t = .punct operator := by
  cases t with
  | punct p =>
    rw [computingAssignment?] at h
    split at h
    next => rw [Option.some.inj h]
    next => cases h
  | _ => cases h

theorem assigned_weaves {r : Reading} :
    Leads (PastReading drops cs kept r) (assigned read mode r) (PastReading drops cs kept) := by
  refine .look fun _ => .ite (fun _ => .pure fun _ h => h) fun _ => .peek fun token => ?_
  have unchanged : Leads (fun s => PastReading drops cs kept r s ∧ s.token = token) (pure r) (PastReading drops cs kept) :=
    .pure fun _ h => h.1
  split
  next left hleft =>
    refine .advance (fun _ h => h.1.punct h.2)
      (.bind (.anyTree fun _ _ => expressionTree_weaves hread) fun right => .pure fun s h => ?_)
    refine h.mono ?_
    rintro _ ⟨_, ⟨t, ht, rfl⟩, rfl⟩
    have made : ∃ u, r.Offers u ∧ t.leaves = u.leaves ++ right.leaves := by
      rcases ht with ⟨⟨⟩⟩ | ⟨⟨⟩⟩ | ht | ⟨⟨⟩⟩
      · exact ⟨left, .target hleft, leaves_assignmentExpression ..⟩
      · obtain ⟨p, hp, rfl⟩ := Option.map_eq_some_iff.1 ht
        exact ⟨p, .pattern hp, leaves_assignmentPattern ..⟩
    obtain ⟨u, hu, hleaves⟩ := made
    exact ⟨_, ⟨_, ⟨u, hu, rfl⟩, rfl⟩, by simp [hleaves]⟩
  next left _ hleft =>
    split
    next operator ho =>
      refine .guardBind fun _ => ?_
      refine .advance (fun s h => (h.1.offer (.target hleft)).before.punct (h.2.trans (computing_punct ho))) ?_
      refine .next (expressionTree_weaves hread) fun right => .pure fun _ h => .ofExpression ?_
      rwa [leaves_assignmentExpression, ← List.append_assoc]
    next => exact unchanged
  next => exact unchanged

end Operands
end Graft.Source
