import Graft.Proofs.Source.Weave.Leads
import Graft.Source.Member
/-!
# Parts of programs are woven from their leaves

What the readers of one level give keeps the leaves of the text that they take, if the readers they ask do so (`WeaveReaders`):
here lists, templates, blocks and functions. An operand does so in each way in which it can be taken (`Reading.Offers`).
-/

namespace Graft

namespace Tree

theorem leaves_closeChain (t : Tree) : t.closeChain.leaves = t.leaves := by
  rw [closeChain]
  split
  next => simp [leaves_node (n := .chainExpression t) rfl rfl, Node.children, Node.fields]
  next => rfl

theorem leaves_identifier (name : String) : leaves (.mk (.identifier name)) = [name] := by
  simp [leaves_eq (.mk (.identifier name)), node, Node.leafText?, shown]

theorem leaves_verbatim (text : String) : leaves (.mk (.verbatim text)) = [text] := by
  simp [leaves_eq (.mk (.verbatim text)), node, Node.leafText?, shown, Node.children, Node.fields]

theorem leaves_spreadElement (e : Tree) : leaves (.mk (.spreadElement e)) = e.leaves := by
  simp [leaves_node (n := .spreadElement e) rfl rfl, Node.children, Node.fields]

theorem leaves_restElement (e : Tree) : leaves (.mk (.restElement e)) = e.leaves := by
  simp [leaves_node (n := .restElement e) rfl rfl, Node.children, Node.fields]

theorem leaves_literal (value : LiteralValue) (raw : String) : leaves (.mk (.literal value raw)) = [raw] := by
  simp [leaves_eq (.mk (.literal value raw)), node, Node.leafText?, shown, Node.children, Node.fields]

end Tree

namespace Source

open Read Graft.Tree

variable {drops : List Char → List Char → Prop} {cs : List Char} {kept : List String}

/-! ## Nodes -/

theorem leaves_identifierTree (name : String) : (identifierTree name).leaves = [name] := leaves_identifier name

/-- A node keeps what its children do. -/
theorem Past.node {s : State} {ks : List String} {n : Node Tree} (h : Past drops cs ks s)
    (hk : ks = kept ++ n.children.flatMap leaves) (hl : n.leafText? = none) (hs : shown (.mk n) = n.children) :
    Past drops cs (kept ++ (Tree.mk n).leaves) s := by
  rw [leaves_node hl hs, ← hk]
  exact h

/-- Several trees that have the same leaves keep them. -/
theorem PastAny.of_leaves {s : State} {offers : Tree → Prop} {ls : List String} (h : Past drops cs (kept ++ ls) s)
    (ho : ∀ t, offers t → t.leaves = ls) :
    PastAny drops cs (fun ks => ∃ ls, (∃ t, offers t ∧ ls = t.leaves) ∧ ks = kept ++ ls) s := by
  refine ⟨h.lexed, ?_⟩
  rintro _ ⟨_, ⟨t, ht, rfl⟩, rfl⟩
  rw [ho t ht]
  exact h.woven

/-! ## Operands -/

/-- One of the ways to take an operand. -/
inductive Reading.Offers (r : Reading) (t : Tree) : Prop
  | expression : r.expression = some t → r.Offers t
  | pattern : r.pattern = some t → r.Offers t
  | defaulted : r.defaulted = some t → r.Offers t
  | target : r.target = some t → r.Offers t

/-- The operand keeps its leaves in each way to take it. -/
abbrev PastReading (drops : List Char → List Char → Prop) (cs : List Char) (kept : List String) (r : Reading) (s : State) :
    Prop :=
  PastAny drops cs (fun ks => ∃ ls, (∃ t, r.Offers t ∧ ls = t.leaves) ∧ ks = kept ++ ls) s

/-- Readers that keep the leaves of what they take. -/
structure WeaveReaders (drops : List Char → List Char → Prop) (read : Readers) : Prop where
  expression : ∀ mode cs kept, Leads (Before drops cs kept) (read (.expression mode)) (PastReading drops cs kept)
  operation : ∀ mode least cs kept, Leads (Before drops cs kept) (read (.operation mode least)) (PastReading drops cs kept)
  unary : ∀ mode cs kept, Leads (Before drops cs kept) (read (.unary mode)) (PastReading drops cs kept)
  statement : ∀ cs kept, Leads (Before drops cs kept) (read .statement) fun t => Past drops cs (kept ++ t.leaves)
  markup : ∀ cs, Leads (Facing cs) (read .markup) fun rest _ => rest <:+ cs
  awaitSense : ∀ P : State → Prop, Leads P (read .awaitSense) fun _ => P
  decorator : ∀ fuel (s s' : State), s.Lexed → (decorator read fuel).run s = some ((), s') → drops s.start s'.previous

namespace PastReading
variable {r : Reading} {t : Tree} {kind : OperandKind} {s : State}

theorem offer (h : PastReading drops cs kept r s) (ho : r.Offers t) : Past drops cs (kept ++ t.leaves) s :=
  h.past ⟨t.leaves, ⟨t, ho, rfl⟩, rfl⟩

theorem closed (h : PastReading drops cs kept r s) (hc : r.closed? = some t) : Past drops cs (kept ++ t.leaves) s := by
  obtain ⟨u, hu, rfl⟩ := Option.map_eq_some_iff.1 hc
  rw [leaves_closeChain]
  exact h.offer (.expression hu)

theorem ofExpression (h : Past drops cs (kept ++ t.leaves) s) : PastReading drops cs kept (.ofExpression t kind) s := by
  refine .of_leaves h fun u hu => ?_
  rcases hu with ⟨⟨⟩⟩ | ⟨⟨⟩⟩ | ⟨⟨⟩⟩ | ⟨⟨⟩⟩
  rfl

theorem ofReference (h : Past drops cs (kept ++ t.leaves) s) : PastReading drops cs kept (.ofReference t) s := by
  refine .of_leaves h fun u hu => ?_
  rcases hu with ⟨⟨⟩⟩ | ⟨⟨⟩⟩ | ⟨⟨⟩⟩ | ⟨⟨⟩⟩
  · rfl
  · exact leaves_closeChain t
  · exact leaves_closeChain t

theorem ofParenthesized (h : Past drops cs (kept ++ t.leaves) s) : PastReading drops cs kept (.ofParenthesized t) s := by
  refine .of_leaves h fun u hu => ?_
  rcases hu with ⟨⟨⟩⟩ | ⟨⟨⟩⟩ | ⟨⟨⟩⟩ | ⟨⟨⟩⟩
  · rfl
  · rfl

end PastReading

/-! ## Items -/

theorem mapM_concat {α β : Type} {f : α → Option β} {as : List α} {a : α} {bs : List β} (h : (as ++ [a]).mapM f = some bs) :
    ∃ bs' b, as.mapM f = some bs' ∧ f a = some b ∧ bs = bs' ++ [b] := by
  rw [List.mapM_append] at h
  obtain ⟨bs', hbs, h⟩ := Option.bind_eq_some_iff.1 h
  obtain ⟨last, hlast, h⟩ := Option.bind_eq_some_iff.1 h
  cases ha : f a with
  | none => simp [ha] at hlast
  | some b =>
    simp [ha] at hlast
    cases h
    exact ⟨bs', b, hbs, rfl, by rw [hlast]⟩

/-- Where every place is taken, empty places do not matter. -/
theorem mapM_filled {α β : Type} {f : α → Option β} {as : List (Option α)} {bs : List β}
    (h : (as.mapM fun a => a.bind f) = some bs) : (as.filterMap id).mapM f = some bs := by
  induction as generalizing bs with
  | nil => simpa using h
  | cons a as ih =>
    rw [List.mapM_cons] at h
    obtain ⟨b, hb, hrest⟩ := Option.bind_eq_some_iff.1 h
    obtain ⟨bs', hbs, hall⟩ := Option.bind_eq_some_iff.1 hrest
    obtain ⟨a, rfl, ha⟩ := Option.bind_eq_some_iff.1 hb
    change (a :: as.filterMap id).mapM f = some bs
    rw [List.mapM_cons, ha, ih hbs]
    exact hall

namespace Item
variable {i : Item} {t : Tree}

/-- One of the ways to take an item. -/
inductive Offers (i : Item) (t : Tree) : Prop
  | argument : i.argument? = some t → i.Offers t
  | element : i.element? = some t → i.Offers t

theorem argument_of_value (h : i.value? = some t) : i.argument? = some t := by
  rw [value?] at h
  split at h
  next => cases h
  next hr => rwa [argument?, if_neg hr]

/-- An item has the leaves of the operand it is made of. -/
theorem Offers.reading (h : i.Offers t) : ∃ u, i.reading.Offers u ∧ t.leaves = u.leaves := by
  rcases h with h | h
  · have hclosed : ∃ c, i.reading.closed? = some c ∧ t.leaves = c.leaves := by
      rw [argument?] at h
      split at h
      next =>
        obtain ⟨c, hc, rfl⟩ := Option.map_eq_some_iff.1 h
        exact ⟨c, hc, leaves_spreadElement c⟩
      next => exact ⟨t, h, rfl⟩
    obtain ⟨c, hc, hleaves⟩ := hclosed
    obtain ⟨u, hu, rfl⟩ := Option.map_eq_some_iff.1 hc
    exact ⟨u, .expression hu, hleaves.trans (leaves_closeChain u)⟩
  · rw [Item.element?] at h
    split at h
    next =>
      obtain ⟨p, hp, rfl⟩ := Option.map_eq_some_iff.1 h
      exact ⟨p, .pattern hp, leaves_restElement p⟩
    next =>
      cases hp : i.reading.pattern with
      | none => exact ⟨t, .defaulted (by simpa [Reading.element?, hp] using h), rfl⟩
      | some p => exact ⟨t, .pattern (by simpa [Reading.element?, hp] using h), rfl⟩

end Item

/-- One of the ways to take all items of a list. -/
inductive OfferAll (items : List (Option Item)) (ts : List Tree) : Prop
  | arguments : (items.filterMap id).mapM Item.argument? = some ts → OfferAll items ts
  | elements : (items.filterMap id).mapM Item.element? = some ts → OfferAll items ts

theorem OfferAll.concat {items : List (Option Item)} {i : Item} {ts : List Tree} (h : OfferAll (items ++ [some i]) ts) :
    ∃ ts' t, OfferAll items ts' ∧ i.Offers t ∧ ts = ts' ++ [t] := by
  rcases h with h | h
  · obtain ⟨ts', t, hts, ht, rfl⟩ := mapM_concat (by simpa using h)
    exact ⟨ts', t, .arguments hts, .argument ht, rfl⟩
  · obtain ⟨ts', t, hts, ht, rfl⟩ := mapM_concat (by simpa using h)
    exact ⟨ts', t, .elements hts, .element ht, rfl⟩

theorem OfferAll.hole {items : List (Option Item)} {ts : List Tree} (h : OfferAll (items ++ [none]) ts) :
    OfferAll items ts := by
  rcases h with h | h
  · exact .arguments (by simpa using h)
  · exact .elements (by simpa using h)

/-- The items keep their leaves in each way to take them. -/
abbrev PastItems (drops : List Char → List Char → Prop) (cs : List Char) (kept : List String) (items : List (Option Item))
    (s : State) : Prop :=
  PastAny drops cs (fun ks => ∃ ts, OfferAll items ts ∧ ks = kept ++ ts.flatMap leaves) s

/-! ## Names -/

theorem bindingName_weaves : Leads (Before drops cs kept) bindingName fun t => Past drops cs (kept ++ t.leaves) := by
  refine .peek fun token => ?_
  split
  next w => exact .guardBind fun _ => .advance (fun _ h => h.1.word h.2) (.pure fun _ h => by rwa [leaves_identifierTree])
  next => exact .failure

section Items
variable {read : Readers} {fuel : Nat} {mode : Mode} (hread : WeaveReaders drops read)
include hread

/-! ## Expressions between commas -/

theorem expressionTree_weaves :
    Leads (Before drops cs kept) (expressionTree read mode) fun t => Past drops cs (kept ++ t.leaves) :=
  .bind (hread.expression mode cs kept) fun _ => .require fun _ hr _ h => h.closed hr

theorem expressions_weaves :
    Leads (Before drops cs kept) (expressions read fuel mode) fun t => Past drops cs (kept ++ t.leaves) := by
  refine .bind (expressionTree_weaves hread) fun first => ?_
  refine .bind (.collect (I := fun ts => Past drops cs (kept ++ first.leaves ++ ts.flatMap leaves))
    (by simp) (fun ts => ?_) fuel) fun more => ?_
  · refine .look fun _ => .ite (fun _ => .pure (by simp)) fun _ => ?_
    refine .pass fun _ => .ite (fun _ => .map ?_) fun _ => .pure (by simp)
    exact .here (.mono (expressionTree_weaves hread) (by simp))
  · refine .ite (fun hm => .pure fun _ h => ?_) fun _ => .pure fun _ h => h.node (by simp [Node.children, Node.fields]) rfl rfl
    simpa [List.isEmpty_iff.1 hm] using h

theorem condition_weaves : Leads (Before drops cs kept) (condition read fuel) fun t => Past drops cs (kept ++ t.leaves) :=
  .bind .punct fun _ => .bind (.here (expressions_weaves hread)) fun _ => .pass fun _ => .pure fun _ h => h

/-! ## Lists -/

theorem item_weaves : Leads (Before drops cs kept) (item read mode) fun i =>
    PastAny drops cs fun ks => ∃ ls, (∃ t, i.Offers t ∧ ls = t.leaves) ∧ ks = kept ++ ls := by
  refine .bind .mayPunct fun rest => .bind (hread.expression mode cs kept) fun r => .pure fun s h => h.mono ?_
  rintro _ ⟨_, ⟨t, ht, rfl⟩, rfl⟩
  obtain ⟨u, hu, hleaves⟩ := ht.reading
  exact ⟨u.leaves, ⟨u, hu, rfl⟩, by rw [hleaves]⟩

theorem itemsUntil_weaves {first later : Mode} {close : String} (n : Nat) (afterComma : Bool) (acc : List (Option Item)) :
    Leads (PastItems drops cs kept acc.reverse) (itemsUntil read first later close n afterComma acc)
      fun p => PastItems drops cs kept p.1 := by
  induction n generalizing acc afterComma with
  | zero => exact .failure
  | succ n ih =>
    refine .pass fun _ => .ite (fun _ => .pure fun _ h => h) fun _ => ?_
    refine .pass fun _ => .ite (fun _ => .of (fun s h => ?_) (ih true _)) fun _ => ?_
    · rw [List.reverse_cons]
      exact h.mono fun ks ⟨ts, hts, hks⟩ => ⟨ts, hts.hole, hks⟩
    · refine .bind (.any fun _ _ => item_weaves hread) fun i => ?_
      have grown (s : State)
          (h : PastAny drops cs (fun ks => ∃ ks' ls, (∃ ts, OfferAll acc.reverse ts ∧ ks' = kept ++ ts.flatMap leaves) ∧
            (∃ t, i.Offers t ∧ ls = t.leaves) ∧ ks = ks' ++ ls) s) :
          PastItems drops cs kept (some i :: acc).reverse s := by
        refine h.mono ?_
        rintro _ ⟨ts, hts, rfl⟩
        rw [List.reverse_cons] at hts
        obtain ⟨ts', t, hts', ht, rfl⟩ := hts.concat
        exact ⟨_, _, ⟨ts', hts', rfl⟩, ⟨t, ht, rfl⟩, by simp⟩
      exact .of grown (.pass fun _ => .ite (fun _ => ih true _) fun _ => .pass fun _ => .pure fun _ h => h)

theorem items_weaves {first later : Mode} {close : String} :
    Leads (Past drops cs kept) (itemsUntil read first later close fuel false []) fun p => PastItems drops cs kept p.1 := by
  refine .of (fun s h => ⟨h.lexed, ?_⟩) (itemsUntil_weaves hread fuel false [])
  rintro _ ⟨ts, hts | hts, rfl⟩
  · cases hts
    simpa using h.woven
  · cases hts
    simpa using h.woven

omit hread in
theorem PastItems.arguments {items : List (Option Item)} {ts : List Tree} {s : State} (h : PastItems drops cs kept items s)
    (hts : argumentsOf items = some ts) : Past drops cs (kept ++ ts.flatMap leaves) s := h.past ⟨ts, .arguments hts, rfl⟩

omit hread in
theorem PastItems.parameters {items : List (Option Item)} {ts : List Tree} {s : State} (h : PastItems drops cs kept items s)
    (hts : parametersOf items = some ts) : Past drops cs (kept ++ ts.flatMap leaves) s :=
  h.past ⟨ts, .elements (mapM_filled hts), rfl⟩

theorem arguments_weaves :
    Leads (Before drops cs kept) (arguments read fuel) fun ts => Past drops cs (kept ++ ts.flatMap leaves) :=
  .bind .punct fun _ => .bind (items_weaves hread) fun _ => .require fun _ hts _ h => h.arguments hts

theorem parameters_weaves :
    Leads (Before drops cs kept) (parameters read fuel) fun ts => Past drops cs (kept ++ ts.flatMap leaves) :=
  .bind .punct fun _ => .bind (items_weaves hread) fun _ => .require fun _ hts _ h => h.parameters hts

/-! ## Templates -/

omit hread in
theorem templateChars_suffix {n : Nat} {text rest : List Char} {ended : Bool} (h : templateChars n text = some (ended, rest)) :
    rest <:+ text := by
  fun_induction templateChars n text with
  | case1 | case5 => cases h
  | case2 _ c cs ih => exact (ih h).trans (List.suffix_cons c cs)
  | case3 cs =>
    cases h
    exact List.suffix_cons _ _
  | case4 cs n _ _ ih => exact (ih h).trans (List.suffix_cons _ cs)
  | case6 cs =>
    cases h
    exact suffix_of_cons (List.suffix_cons _ _)
  | case7 c cs _ _ _ ih => exact (ih h).trans (List.suffix_cons c cs)

theorem templateRest_suffix {P : State → Prop} (n : Nat) (text : List Char) :
    Leads P (templateRest read fuel n text) fun rest _ => rest <:+ text := by
  induction n generalizing text P with
  | zero => exact .failure
  | succ n ih =>
    refine .requireBind fun p hp => ?_
    have hchars := templateChars_suffix hp
    refine .ite (fun _ => .pure fun _ _ => hchars) fun _ => ?_
    refine .set (S := Past drops p.2 []) ⟨State.ofText_lexed true p.2, .start⟩ ?_
    refine .bind (.here (expressions_weaves hread)) fun e => .look fun _ => .look fun _ => .get fun s h => ?_
    have hrest : s.rest <:+ text := (h.lexed.rest_suffix.trans h.before.woven.suffix).trans hchars
    exact .mono (ih s.rest) fun rest _ hr => hr.trans hrest

theorem template_onward : Leads (Facing cs) (template read fuel) fun _ => Onward cs := by
  refine .get fun s h => .bind (templateRest_suffix hread fuel s.rest) fun rest => ?_
  intro s₁ _ s₂ hrest he
  cases he
  exact ⟨State.ofText_lexed false rest, hrest.trans (h.lexed.rest_suffix.trans h.suffix)⟩

/-! ## Blocks -/

theorem statementsUntilBrace_weaves :
    Leads (Past drops cs kept) (statementsUntilBrace read fuel) fun ts => Past drops cs (kept ++ ts.flatMap leaves) := by
  refine .collect (by simp) (fun ts => ?_) fuel
  refine .pass fun _ => .ite (fun _ => .pure (by simp)) fun _ => .map ?_
  exact .here (.mono (hread.statement cs _) (by simp))

omit hread in
theorem Past.block {s : State} {body : List Tree} (h : Past drops cs (kept ++ body.flatMap leaves) s) :
    Past drops cs (kept ++ (Tree.mk (.blockStatement body)).leaves) s := h.node (by simp) rfl rfl

theorem block_weaves {bare : Bool} :
    Leads (Before drops cs kept) (block read fuel bare) fun t => Past drops cs (kept ++ t.leaves) :=
  .bind .punct fun _ => .bind (statementsUntilBrace_weaves hread) fun _ => .pass fun _ => .pure fun _ h => h.block

/-- The leaves of a function's parts. -/
abbrev PastFunction (drops : List Char → List Char → Prop) (cs : List Char) (kept : List String) (f : Func Tree) :
    State → Prop :=
  Past drops cs (kept ++ (f.id.toList ++ f.params ++ [f.body]).flatMap leaves)

omit hread in
theorem Past.func {s : State} {f : Func Tree} {n : Node Tree} (h : PastFunction drops cs kept f s) (hn : n.func? = some f)
    (hl : n.leafText? = none) (hs : shown (.mk n) = n.children) : Past drops cs (kept ++ (Tree.mk n).leaves) s := h.node (by rw [Node.children_of_func hn]) hl hs

theorem functionRest_weaves {isAsync named bare : Bool} :
    Leads (Before drops cs kept) (functionRest read fuel isAsync named bare) (PastFunction drops cs kept) := by
  refine .bind (.word (by decide)) fun _ => .pass fun generator => .pass fun _ => .pass fun isAnonymous => ?_
  have rest (id : Option Tree) : Leads (Past drops cs (kept ++ id.toList.flatMap leaves)) (do
      markupAhead
      let params ← parameters read fuel
      markupAhead
      let body ← block read fuel bare
      return { id := id, params := params, body := body, isAsync := isAsync, generator := generator })
      (PastFunction drops cs kept) := by
    refine .pass fun _ => .bind (.here (parameters_weaves hread)) fun params => .pass fun _ => ?_
    refine .bind (.here (block_weaves hread)) fun body => .pure fun _ h => ?_
    simpa [PastFunction] using h
  refine .ite (fun _ => .bind .none rest) fun _ => .bind (.map ?_) rest
  exact .here (.mono bindingName_weaves (by simp))

theorem blockOrObject_weaves {bare : Bool} : Leads (Before drops cs kept) (blockOrObject read fuel bare) fun p =>
    Past drops cs (kept ++ p.1.flatMap leaves) := by
  have body : Leads (Past drops cs kept) (do
      let body ← statementsUntilBrace read fuel
      return (body, ← insertedSemicolon (bare && !body.isEmpty))) fun p => Past drops cs (kept ++ p.1.flatMap leaves) :=
    .bind (statementsUntilBrace_weaves hread) fun _ => .pass fun _ => .pure fun _ h => h
  refine .bind .punct fun _ => .get fun s h => ?_
  have here : Leads (fun s' => s' = s) (do
      let body ← statementsUntilBrace read fuel
      return (body, ← insertedSemicolon (bare && !body.isEmpty))) fun p => Past drops cs (kept ++ p.1.flatMap leaves) :=
    .of (fun _ he => he ▸ h) body
  split
  next w hw => exact .ite (fun _ => .set ⟨h.lexed.named hw, h.woven⟩ body) fun _ => here
  next => exact here

/-- Whatever comes first, a block or the other reading, the text is woven from what it gives. -/
theorem blockOr_weaves {α : Type} {bare : Bool} {wrap : Tree → α} {other : Read α} {Q : α → State → Prop}
    (hwrap : ∀ t s, Past drops cs (kept ++ t.leaves) s → Q (wrap t) s) (hother : Leads (Before drops cs kept) other Q) :
    Leads (Before drops cs kept) (blockOr read fuel bare wrap other) Q := by
  refine .get fun s h => ?_
  extract_lets settled asBlock
  have here {r : Read α} (hr : Leads (Before drops cs kept) r Q) : Leads (fun s' => s' = s) r Q := .of (fun _ he => he ▸ h) hr
  have hsettled : Leads (Before drops cs kept) settled Q := .ite (fun _ => .failure) fun _ => hother
  have hblock : Leads (Before drops cs kept) asBlock Q := by
    refine .set (S := Before drops cs kept) h ?_
    split
    next body ended after he =>
      have hbody : Past drops cs (kept ++ body.flatMap leaves) after := blockOrObject_weaves hread s _ after h he
      have take : Leads (Before drops cs kept) (do set after; return wrap (.mk (.blockStatement body))) Q :=
        .set hbody (.pure fun s hs => hwrap _ s hs.block)
      exact .ite (fun _ => hsettled) fun _ => .ite (fun _ => .orElse hsettled take) fun _ => take
    next => exact hsettled
  exact .ite (fun _ => .orElse (here hsettled) (here hblock)) fun _ => here hblock

theorem arrowBody_weaves : Leads (Before drops cs kept) (arrowBody read fuel mode) fun t => Past drops cs (kept ++ t.leaves) :=
  .look fun _ => .ite (fun _ => blockOr_weaves hread (fun _ _ h => h) (expressionTree_weaves hread))
    fun _ => expressionTree_weaves hread

theorem arrowRest_weaves {isAsync : Bool} {params : List Tree} :
    Leads (Before drops cs (kept ++ params.flatMap leaves)) (arrowRest read fuel mode isAsync params)
      (PastReading drops cs kept) := by
  refine .bind .punct fun _ => .bind (.here (arrowBody_weaves hread)) fun body => .pure fun s h => ?_
  have hparts : PastFunction drops cs kept ⟨none, params, body, isAsync, false⟩ s := by simpa [PastFunction] using h
  exact .ofExpression (Past.func (n := .arrowFunctionExpression _) hparts rfl rfl rfl)

end Items

end Source
end Graft
