import Graft.Proofs.Source.Gives
import Graft.Proofs.Syntax.Chains
import Graft.Source.Member
/-!
# Parts of programs fit their slots

What the readers of one level give fits the slot that it is read for, its chains closed off, if the readers they ask do so
(`FitReaders`): here lists, blocks, functions and the members of objects and classes. An operand fits as an expression, as a
pattern and as the left side of an assignment, as far as it can be read so, and as an expression it may still go on as a chain
(`Reading.Fits`).
-/

namespace Graft.Source

open Read Graft.Tree

/-- Each way to take an operand fits the slots it is for, and only the chain of the expression may still go on. -/
structure Reading.Fits (r : Reading) : Prop where
  expression : ∀ t ∈ r.expression, t.Chained
  pattern : ∀ t ∈ r.pattern, Tree.Fills .pattern t
  defaulted : ∀ t ∈ r.defaulted, Tree.Fills .element t
  target : ∀ t ∈ r.target, Tree.Fills .target t

/-- Readers that give what fits. -/
structure FitReaders (read : Readers) : Prop where
  expression : ∀ mode, Gives (read (.expression mode)) Reading.Fits
  operation : ∀ mode least, Gives (read (.operation mode least)) Reading.Fits
  unary : ∀ mode, Gives (read (.unary mode)) Reading.Fits
  statement : Gives (read .statement) (Tree.Fills .statement)

/-! ## Readings -/

namespace Reading.Fits
variable {r : Reading} {t : Tree} {kind : OperandKind}

theorem ofChain (h : t.Chained) : (Reading.ofExpression t kind).Fits := by
  refine ⟨?_, nofun, nofun, nofun⟩
  rintro _ ⟨⟩
  exact h

theorem ofExpression (h : Tree.Fills .expression t) : (Reading.ofExpression t kind).Fits := ofChain h.chained

theorem ofReference (h : t.Chained) (hp : t.closeChain.node.isPattern = true) : (Reading.ofReference t).Fits := by
  have hc := h.closeChain
  refine ⟨?_, ?_, nofun, ?_⟩
  · rintro _ ⟨⟩
    exact h
  · rintro _ ⟨⟩
    exact hc.move hp (Node.places_congr _ _ (.inl hc.allows))
  · rintro _ ⟨⟩
    exact hc.ofExpression rfl

theorem ofParenthesized (h : Tree.Fills .expression t) : (Reading.ofParenthesized t).Fits := by
  refine ⟨?_, nofun, nofun, ?_⟩
  · rintro _ ⟨⟩
    exact h.chained
  · rintro _ ⟨⟩
    exact h.ofExpression rfl

theorem ofBraces {literal pattern : Option Tree} (h : ∀ t ∈ literal, Tree.Fills .expression t)
    (hp : ∀ t ∈ pattern, Tree.Fills .pattern t) : (Reading.ofBraces literal pattern).Fits :=
  ⟨fun t ht => (h t ht).chained, hp, nofun, fun t ht => (hp t ht).ofPattern rfl⟩

theorem closed (h : r.Fits) : ∀ t ∈ r.closed?, Tree.Fills .expression t := by
  intro t ht
  obtain ⟨u, hu, rfl⟩ := Option.map_eq_some_iff.1 ht
  exact (h.expression u hu).closeChain

theorem element (h : r.Fits) : ∀ t ∈ r.element?, Tree.Fills .element t := by
  intro t ht
  cases hp : r.pattern with
  | none =>
    rw [Reading.element?, hp] at ht
    exact h.defaulted t ht
  | some p =>
    rw [Reading.element?, hp] at ht
    cases Option.some.inj ht
    exact (h.pattern _ hp).ofPattern rfl

end Reading.Fits

theorem fits_identifier (name : String) {σ : Slot} (h : σ.allows (Node.identifier (α := Tree) name) = true) :
    Tree.Fills σ (identifierTree name) := .node h rfl nofun

theorem fits_none {σ : Slot} : ∀ t ∈ (none : Option Tree), Tree.Fills σ t := nofun

theorem fits_verbatim (text : String) {σ : Slot} (h : σ.allows (Node.verbatim (α := Tree) text) = true) :
    Tree.Fills σ (.mk (.verbatim text)) := .node h rfl nofun

variable {read : Readers} {fuel : Nat} {mode : Mode}

theorem bindingName_fits {σ : Slot} (h : ∀ name, σ.allows (Node.identifier (α := Tree) name) = true) :
    Gives bindingName (Tree.Fills σ) := by
  refine .after fun token => ?_
  split
  next w => exact .after fun _ => .after fun _ => .pure (fits_identifier w (h w))
  next => exact .failure

section Items
variable (hread : FitReaders read)
include hread

/-! ## Lists -/

theorem expressionTree_fits : Gives (expressionTree read mode) (Tree.Fills .expression) :=
  .bind (hread.expression mode) fun _ hr => .require hr.closed

theorem expressions_fits : Gives (expressions read fuel mode) (Tree.Fills .expression) := by
  have more : Gives (do
      if ← mode.stops then return none
      else if ← punct? "," then some <$> expressionTree read mode.behind
      else return none) fun o => ∀ t ∈ o, Tree.Fills .expression t := by
    refine .after fun _ => .ite (.pure nofun) (.after fun _ => .ite (.map ?_) (.pure nofun))
    exact (expressionTree_fits hread).mono fun t ht => by simpa using ht
  refine .bind (expressionTree_fits hread) fun first hfirst => .bind (.collect more fuel nofun) fun es hes => ?_
  exact .ite (.pure hfirst) (.pure (.node rfl rfl (by grind [Node.places])))

theorem condition_fits : Gives (condition read fuel) (Tree.Fills .expression) :=
  .after fun _ => .bind (expressions_fits hread) fun _ he => .after fun _ => .pure he

theorem item_fits : Gives (item read mode) fun i => i.reading.Fits :=
  .after fun _ => .bind (hread.expression mode) fun _ hr => .pure hr

theorem itemsUntil_fits {first later : Mode} {close : String} (n : Nat) (afterComma : Bool) {acc : List (Option Item)}
    (hacc : ∀ i, some i ∈ acc → i.reading.Fits) :
    Gives (itemsUntil read first later close n afterComma acc) fun p => ∀ i, some i ∈ p.1 → i.reading.Fits := by
  induction n generalizing acc afterComma with
  | zero => exact .failure
  | succ n ih =>
    refine .after fun _ => .ite (.pure ?_) (.after fun _ => .ite (ih true ?_) (.bind (item_fits hread) fun i hi => ?_))
    · simpa using hacc
    · simpa using hacc
    · have hnext : ∀ j, some j ∈ some i :: acc → j.reading.Fits := by
        intro j hj
        rcases List.mem_cons.1 hj with hj | hj
        · cases hj
          exact hi
        · exact hacc j hj
      refine .after fun _ => .ite (ih true hnext) (.after fun _ => .pure fun j hj => hnext j ?_)
      exact List.mem_reverse.1 hj

end Items

theorem fits_argument {i : Item} (h : i.reading.Fits) : ∀ t ∈ i.argument?, Tree.Fills .item t := by
  intro t ht
  rw [Item.argument?] at ht
  split at ht
  next =>
    obtain ⟨u, hu, rfl⟩ := Option.map_eq_some_iff.1 ht
    exact .node rfl rfl (by simpa [Node.places] using h.closed u hu)
  next => exact (h.closed t ht).ofExpression rfl

theorem fits_element {i : Item} (h : i.reading.Fits) : ∀ t ∈ i.element?, Tree.Fills .element t := by
  intro t ht
  rw [Item.element?] at ht
  split at ht
  next =>
    obtain ⟨u, hu, rfl⟩ := Option.map_eq_some_iff.1 ht
    exact .node rfl rfl (by simpa [Node.places] using h.pattern u hu)
  next => exact h.element t ht

theorem fits_value {i : Item} (h : i.reading.Fits) : ∀ t ∈ i.value?, Tree.Fills .expression t := by
  intro t ht
  rw [Item.value?] at ht
  split at ht
  next => cases ht
  next => exact h.closed t ht

/-- What a list of optional parts is made of comes from its items. -/
theorem mapM_mem {α β : Type} {f : α → Option β} {as : List α} {bs : List β} (h : as.mapM f = some bs) {b : β} (hb : b ∈ bs) :
    ∃ a ∈ as, f a = some b := by
  induction as generalizing bs with
  | nil =>
    cases h
    cases hb
  | cons a as ih =>
    rw [List.mapM_cons] at h
    obtain ⟨c, hc, h⟩ := Option.bind_eq_some_iff.1 h
    obtain ⟨cs, hcs, h⟩ := Option.bind_eq_some_iff.1 h
    cases h
    rcases List.mem_cons.1 hb with rfl | hb
    · exact ⟨a, List.mem_cons_self, hc⟩
    · obtain ⟨a', ha', he⟩ := ih hcs hb
      exact ⟨a', List.mem_cons_of_mem _ ha', he⟩

section Lists
variable {items : List (Option Item)} (h : ∀ i, some i ∈ items → i.reading.Fits)
include h

theorem fits_argumentsOf {ts : List Tree} (hts : argumentsOf items = some ts) : ∀ t ∈ ts, Tree.Fills .item t := by
  intro t ht
  obtain ⟨i, hi, he⟩ := mapM_mem hts ht
  exact fits_argument (h i (by simpa using hi)) t he

theorem fits_parametersOf {ts : List Tree} (hts : parametersOf items = some ts) : ∀ t ∈ ts, Tree.Fills .element t := by
  intro t ht
  obtain ⟨o, ho, he⟩ := mapM_mem hts ht
  obtain ⟨i, rfl, hit⟩ := Option.bind_eq_some_iff.1 he
  exact fits_element (h i ho) t hit

theorem fits_arrayElements {f : Item → Option Tree} {P : Tree → Prop} (hf : ∀ i : Item, i.reading.Fits → ∀ t ∈ f i, P t)
    {es : List (Option Tree)} (hes : arrayElements f items = some es) : ∀ t ∈ es.filterMap id, P t := by
  intro t ht
  obtain ⟨o, ho, he⟩ := mapM_mem hes (by simpa using ht)
  cases o with
  | none => cases he
  | some i =>
    obtain ⟨u, hu, hut⟩ := Option.map_eq_some_iff.1 he
    cases hut
    exact hf i (h i ho) _ hu

end Lists

section Parts
variable (hread : FitReaders read)
include hread

theorem arguments_fits : Gives (arguments read fuel) fun ts => ∀ t ∈ ts, Tree.Fills .item t :=
  .after fun _ => .bind (itemsUntil_fits hread fuel false nofun) fun _ hp => .require fun _ hts => fits_argumentsOf hp hts

theorem parameters_fits : Gives (parameters read fuel) fun ts => ∀ t ∈ ts, Tree.Fills .element t :=
  .after fun _ => .bind (itemsUntil_fits hread fuel false nofun) fun _ hp => .require fun _ hts => fits_parametersOf hp hts

/-! ## Blocks and functions -/

theorem statementsUntilBrace_fits : Gives (statementsUntilBrace read fuel) fun ts => ∀ t ∈ ts, Tree.Fills .statement t :=
  .collect (.after fun _ => .ite (.pure nofun) (.map (hread.statement.mono fun _ ht => by simpa using ht))) fuel nofun

omit hread in
theorem fits_block {body : List Tree} (h : ∀ t ∈ body, Tree.Fills .statement t) {σ : Slot}
    (hσ : σ.allows (Node.blockStatement body) = true) : Tree.Fills σ (.mk (.blockStatement body)) :=
  .node hσ rfl (by grind [Node.places])

theorem block_fits {bare : Bool} : Gives (block read fuel bare) (Tree.Fills .block) :=
  .after fun _ => .bind (statementsUntilBrace_fits hread) fun _ hb => .after fun _ => .pure (fits_block hb rfl)

theorem functionRest_fits {isAsync named bare : Bool} :
    Gives (functionRest read fuel isAsync named bare) fun f => ∀ p ∈ Node.funcPlaces .block f, Tree.Fills p.2 p.1 := by
  have hid : Gives (some <$> bindingName) fun id => ∀ t ∈ id, Tree.Fills .name t :=
    .map ((bindingName_fits fun _ => rfl).mono fun _ ht => by simpa using ht)
  refine .after fun _ => .after fun _ => .after fun _ => .after fun _ => .iteBind (.pure nofun) hid fun id hid => ?_
  refine .after fun _ => .bind (parameters_fits hread) fun ps hps => .after fun _ => .bind (block_fits hread) fun b hb => ?_
  exact .pure (by grind [Node.funcPlaces])

theorem blockOrObject_fits {bare : Bool} :
    Gives (blockOrObject read fuel bare) fun p => ∀ t ∈ p.1, Tree.Fills .statement t := by
  have rest : Gives (do
      let body ← statementsUntilBrace read fuel
      return (body, ← insertedSemicolon (bare && !body.isEmpty))) fun p => ∀ t ∈ p.1, Tree.Fills .statement t :=
    .bind (statementsUntilBrace_fits hread) fun _ hb => .after fun _ => .pure hb
  refine .after fun _ => .after fun s => ?_
  split
  next => exact .ite (.after fun _ => rest) rest
  next => exact rest

/-- Whatever comes first, both readings are as wanted. -/
theorem blockOr_fits {α : Type} {bare : Bool} {wrap : Tree → α} {other : Read α} {P : α → Prop}
    (hwrap : ∀ body : List Tree, (∀ t ∈ body, Tree.Fills .statement t) → P (wrap (.mk (.blockStatement body))))
    (hother : Gives other P) : Gives (blockOr read fuel bare wrap other) P := by
  refine .after fun s => ?_
  extract_lets settled asBlock
  have hsettled : Gives settled P := .ite .failure hother
  have hblock : Gives asBlock P := by
    refine .after fun _ => ?_
    split
    next body ended after h =>
      have hb : ∀ t ∈ body, Tree.Fills .statement t := blockOrObject_fits hread _ _ _ h
      have take : Gives (do set after; return wrap (.mk (.blockStatement body))) P := .after fun _ => .pure (hwrap body hb)
      exact .ite hsettled (.ite (.orElse hsettled take) take)
    next => exact hsettled
  exact .ite (.orElse hsettled hblock) hblock

theorem arrowBody_fits : Gives (arrowBody read fuel mode) (Tree.Fills .arrowBody) := by
  have value : Gives (expressionTree read mode.behind) (Tree.Fills .arrowBody) :=
    (expressionTree_fits hread).mono fun _ h => h.ofExpression rfl
  exact .after fun _ => .ite (blockOr_fits hread (fun _ hb => fits_block hb rfl) value) value

theorem arrowRest_fits {isAsync : Bool} {params : List Tree} (hps : ∀ t ∈ params, Tree.Fills .element t) :
    Gives (arrowRest read fuel mode isAsync params) Reading.Fits :=
  .after fun _ => .bind (arrowBody_fits hread) fun _ hb =>
    .pure (.ofExpression (.node rfl rfl (by grind [Node.places, Node.funcPlaces])))

end Parts

end Graft.Source
