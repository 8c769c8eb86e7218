import Graft.Proofs.Print.Opening
/-!
# Printed tokens derive their tree

The tokens that a well-formed tree prints to come from its symbol (`Formed.derives`), and those of an operand from the
nonterminal of the least level asked for (`Formed.operand_derives`). The argument at each place is the same: without
parentheses the symbol that is wanted stands for the symbol of the operand, and with them for a primary expression.
-/

namespace Graft.Grammar

open Lexical Graft.Tree

variable {A : Alphabet} {g : Goal} {p : Standing} {t : Tree} {s s' : Symbol} {c : PrintContext}

theorem tokens_enclose (b : Bool) (ps : Pieces) :
    tokens (enclose b ps) = if b then "(" :: tokens ps ++ [")"] else tokens ps := by
  cases b with
  | true => simp [enclose]
  | false => rfl

theorem Derives.enclose {ps : Pieces} {b : Bool} (h : Derives A g s' (tokens ps) t)
    (hb : b = true → Reaches s .primary ∧ Reaches .expression s') (hn : b = false → Reaches s s') :
    Derives A g s (tokens (enclose b ps)) t := by
  rw [tokens_enclose]
  cases b with
  | true => exact (Derives.parenthesis (h.reaches (hb rfl).2)).reaches (hb rfl).1
  | false => exact h.reaches (hn rfl)

theorem Formed.reaches_expression (h : Formed A g .whole t) : Reaches .expression (symbol t) :=
  (reaches_of_le (Nat.zero_le t.level)).trans h.reaches

theorem Formed.operand_derives (h : Formed A g .whole t) (hd : Derives A g (symbol t) (tokens (pieces t c)) t) (least : Nat) :
    Derives A g (.ofLevel least) (tokens (operand t least c)) t := by
  apply hd.enclose
  · intro _
    exact ⟨reaches_primary least, h.reaches_expression⟩
  · intro hl
    have : least ≤ t.level := Nat.not_lt.1 (of_decide_eq_false hl)
    exact (reaches_of_le this).trans h.reaches

/-! ## Lists -/

theorem tokens_separate (pss : List Pieces) : tokens (separate pss) = commas (pss.map tokens) := by
  induction pss with
  | nil => rfl
  | cons ps rest ih =>
    cases rest with
    | nil => simp [separate, commas]
    | cons qs rest =>
      rw [separate, tokens_append, tokens_append, ih]
      · simp [commas]
      · simp

/-- The operands of a list with their tokens. -/
def items (ts : List Tree) (c : PrintContext) : List (List String × Tree) :=
  ts.map fun t => (tokens (operand t Level.assign c), t)

theorem tokens_operands (ts : List Tree) : tokens (operands ts c) = commas ((items ts c).map (·.1)) := by
  rw [operands, tokens_separate, items, List.map_map, List.map_map]
  rfl

theorem items_trees (ts : List Tree) : (items ts c).map (·.2) = ts := by
  rw [items, List.map_map]
  exact List.map_id' ts

theorem items_some (ts : List Tree) : (items ts c).map (fun i => some i.2) = ts.map some := by
  rw [items, List.map_map]
  rfl

theorem items_derive {ts : List Tree} (h : ∀ t ∈ ts, Formed A g .whole t)
    (hd : ∀ t ∈ ts, Derives A g (symbol t) (tokens (pieces t c)) t) :
    ∀ i ∈ items ts c, Derives A g .assignment i.1 i.2 := by
  intro i hi
  obtain ⟨t, ht, rfl⟩ := List.mem_map.1 hi
  exact (h t ht).operand_derives (hd t ht) Level.assign

/-- The tokens of a list in parentheses. -/
theorem tokens_arguments (ts : List Tree) :
    tokens (argumentList ts c) = arguments ((items ts c).map (·.1)) := by
  simp [argumentList, arguments, tokens_operands]

theorem items_members {ts : List Tree} (h : ∀ t ∈ ts, Formed A g .member t)
    (hd : ∀ t ∈ ts, Derives A g (symbol t) (tokens (pieces t c)) t) :
    ∀ i ∈ items ts c, Derives A g .property i.1 i.2 := by
  intro i hi
  obtain ⟨t, ht, rfl⟩ := List.mem_map.1 hi
  have hs : symbol t = .property := (h t ht).allows
  rw [← hs]
  apply (hd t ht).enclose
  · intro hb
    rw [decide_eq_true_eq, (h t ht).of_member] at hb
    exact absurd hb (by decide)
  · intro _
    rw [hs]
    exact .refl

/-! ## Objects and callees -/

theorem number_base (h : t.node.isNumber = true) : (symbol t).base = .member := by
  obtain ⟨n⟩ := t
  unfold Tree.node Node.isNumber at h
  split at h
  next he =>
    cases he
    rfl
  next => cases h

/-- An operand that a link is appended to. -/
theorem Formed.base_derives {b : Bool} (h : Formed A g p t) (hp : p ≠ .member)
    (hd : Derives A g (symbol t) (tokens (pieces t c)) t)
    (hb : b = true → t.node.isNumber = true ∨ t.node.isChain = true ∨ t.level < Level.call)
    (hn : b = false → t.node.isChain = false ∧ Level.call ≤ t.level) :
    Derives A g (symbol t).base (tokens (Grammar.enclose b (pieces t c))) t := by
  apply hd.enclose
  · intro hbt
    have hbase : (symbol t).base = .member := by
      rcases hb hbt with hk | hk | hk
      · exact number_base hk
      · exact h.closedObject (.inr hk)
      · exact h.closedObject (.inl hk)
    refine ⟨hbase ▸ .single (by decide), ?_⟩
    cases p with
    | whole => exact h.reaches_expression
    | member => exact absurd rfl hp
    | chained =>
      obtain ⟨h1, h2, h3⟩ := h.of_chained
      rcases hb hbt with hk | hk | hk
      · rw [h3] at hk; cases hk
      · rw [h2] at hk; cases hk
      · exact absurd hk (Nat.not_lt.2 h1)
  · intro hbf
    obtain ⟨h1, h2⟩ := hn hbf
    exact h.bareObject hp h2 h1

theorem Formed.callee_derives (h : Formed A g p t) (hp : p ≠ .member)
    (hd : Derives A g (symbol t) (tokens (pieces t c)) t) : Derives A g (symbol t).base (tokens (Grammar.callee t c)) t := by
  apply h.base_derives hp hd
  · intro hb
    rw [Bool.or_eq_true, decide_eq_true_eq] at hb
    exact .inr hb
  · intro hb
    rw [Bool.or_eq_false_iff, decide_eq_false_iff_not, Nat.not_lt] at hb
    exact hb

theorem Formed.object_derives (h : Formed A g p t) (hp : p ≠ .member)
    (hd : Derives A g (symbol t) (tokens (pieces t c)) t) : Derives A g (symbol t).base (tokens (Grammar.object t c)) t := by
  apply h.base_derives hp hd
  · intro hb
    rw [Bool.or_eq_true, Bool.or_eq_true, decide_eq_true_eq] at hb
    exact hb
  · intro hb
    rw [Bool.or_eq_false_iff, Bool.or_eq_false_iff, decide_eq_false_iff_not, Nat.not_lt] at hb
    exact hb.2

theorem isChain_base (s : Symbol) : s.base.isChain = true := by
  cases s <;> rfl

/-! ## Every node -/

theorem params_tokens (params : List String) :
    (items (params.map fun p => .mk (.identifier p)) c).map (·.1) = params.map fun p => [p] := by
  rw [items, List.map_map, List.map_map]
  rfl

theorem Formed.side_derives (h : Formed A g .whole t) (hd : Derives A g (symbol t) (tokens (pieces t c)) t) {op : String}
    (hop : op ≠ "??") (least : Nat) : Derives A g (.ofLevel least) (tokens (side op t least c)) t := by
  have : side op t least c = operand t least c := by rw [side, decide_eq_false hop, Bool.false_and, Bool.false_or, operand]
  rw [this]
  exact h.operand_derives hd least

section Operators
variable {l r : Tree} (hc : c.noIn = false) (hl : Formed A g .whole l) (hr : Formed A g .whole r)
  (hdl : Derives A g (symbol l) (tokens (pieces l c)) l) (hdr : Derives A g (symbol r) (tokens (pieces r c)) r)
include hc hl hr hdl hdr

theorem power_derives : Derives A g .exponentiation (tokens (binaryPieces "**" l (pieces l) r (pieces r) c))
    (.mk (.binaryExpression "**" l r)) := by
  have hleft : Derives A g .update
      (tokens (enclose (l.node.isUnaryOrAwait || decide (l.level < Level.unary)) (pieces l c))) l := by
    apply hdl.enclose
    · exact fun _ => ⟨reaches_primary Level.postfixUpdate, hl.reaches_expression⟩
    · intro hb
      rw [Bool.or_eq_false_iff, decide_eq_false_iff_not, Nat.not_lt] at hb
      exact hl.power hb.2 hb.1
  have ho : ⟨.exponentiation, .update, ["**"], .exponentiation⟩ ∈ binaries := by simp [binaries]
  rw [binaryPieces_power hc]
  simpa using Derives.binary ho (List.mem_singleton.2 rfl) hleft (hr.operand_derives hdr Level.exponent)

theorem coalesce_derives : Derives A g .coalesce (tokens (binaryPieces "??" l (pieces l) r (pieces r) c))
    (.mk (.logicalExpression "??" l r)) := by
  have hleft : Derives A g .coalesceHead (tokens (side "??" l Level.nullish c)) l := by
    apply hdl.enclose
    · have : Reaches .coalesceHead .bitOr := .single (by decide)
      exact fun _ => ⟨this.trans (reaches_primary Level.bitOr), hl.reaches_expression⟩
    · intro hb
      rw [decide_eq_true rfl, Bool.true_and, Bool.or_eq_false_iff, decide_eq_false_iff_not, Nat.not_lt] at hb
      exact hl.nullishLeft hb.2 hb.1
  have hright : Derives A g .bitOr (tokens (side "??" r Level.or c)) r := by
    apply hdr.enclose
    · exact fun _ => ⟨reaches_primary Level.bitOr, hr.reaches_expression⟩
    · intro hb
      rw [decide_eq_true rfl, Bool.true_and, Bool.or_eq_false_iff, decide_eq_false_iff_not, Nat.not_lt] at hb
      exact hr.nullishRight hb.2 hb.1
  have ho : ⟨.coalesce, .coalesceHead, ["??"], .bitOr⟩ ∈ logicals := by simp [logicals]
  rw [binaryPieces_eq hc (by decide)]
  show Derives A g .coalesce (tokens (side "??" l Level.nullish c ++ _ ++ side "??" r Level.or c)) _
  simpa using Derives.logical ho (List.mem_singleton.2 rfl) hleft hright

theorem binary_derives {op : String} (hop : op ∈ binaryOperators) :
    Derives A g (.ofLevel (Level.ofOperator op)) (tokens (binaryPieces op l (pieces l) r (pieces r) c))
      (.mk (.binaryExpression op l r)) := by
  have hq : ∀ op ∈ binaryOperators, op ≠ "??" := by decide
  by_cases hp : op = "**"
  · subst hp
    exact power_derives hc hl hr hdl hdr
  · obtain ⟨o, ho, hin, hres, hleft, hright⟩ := binary_operands hop hp
    have h1 := hl.side_derives hdl (hq op hop) (Level.ofOperator op)
    have h2 := hr.side_derives hdr (hq op hop) (Level.ofOperator op + 1)
    rw [← hleft] at h1
    rw [← hright] at h2
    rw [binaryPieces_eq hc hp, ← hres]
    simpa using Derives.binary ho hin h1 h2

theorem logical_derives {op : String} (hop : op ∈ logicalOperators) (hq : op ≠ "??") :
    Derives A g (.ofLevel (Level.ofOperator op)) (tokens (binaryPieces op l (pieces l) r (pieces r) c))
      (.mk (.logicalExpression op l r)) := by
  have hp : ∀ op ∈ logicalOperators, op ≠ "**" := by decide
  obtain ⟨o, ho, hin, hres, hleft, hright⟩ := logical_operands hop hq
  have h1 := hl.side_derives hdl hq (Level.ofOperator op)
  have h2 := hr.side_derives hdr hq (Level.ofOperator op + 1)
  rw [← hleft] at h1
  rw [← hright] at h2
  rw [binaryPieces_eq hc (hp op hop), ← hres]
  simpa using Derives.logical ho hin h1 h2

end Operators

/-- The body of an arrow, with the parentheses that keep it from beginning with a brace. -/
theorem Formed.body_derives {body : Tree} (h : Formed A g .whole body) (hc : c.noIn = false)
    (hd : Derives A g (symbol body) (tokens (pieces body c)) body) {ps : Pieces}
    (hps : ps = if startsWithBrace body then .mark "(" :: operand body Level.assign c ++ [.mark ")"]
      else operand body Level.assign c) :
    (tokens ps).head? ≠ some "\x7b" ∧ Derives A g .assignment (tokens ps) body := by
  have ho : Derives A g .assignment (tokens (operand body Level.assign c)) body := h.operand_derives hd Level.assign
  subst hps
  split
  next =>
    refine ⟨by simp, ?_⟩
    have he : Derives A g .expression (tokens (operand body Level.assign c)) body := .unit (by decide) ho
    have hp : Reaches .assignment .primary := reaches_primary Level.assign
    simpa using he.parenthesis.reaches hp
  next hb =>
    have hbegin : Begins (operand body Level.assign c) body := (h.begins nofun hc).operand fun _ _ h => h
    exact ⟨hbegin.head_tokens (Bool.eq_false_iff.2 hb), ho⟩

theorem Formed.derives (h : Formed A g p t) (hc : c.noIn = false) : Derives A g (symbol t) (tokens (pieces t c)) t := by
  -- Each form is one production. An operand comes to the symbol it stands for by unit productions or in parentheses.
  induction h with
  | leaf h =>
    rw [h.symbol.1, leaf_pieces h]
    exact .leaf h
  | @array g es hes ih =>
    rw [pieces_array hc]
    show Derives A g .primary _ _
    simpa [tokens_operands, items_some] using Derives.array (items_derive hes ih)
  | @object g ps hps ih =>
    have := Derives.object (items_members hps ih)
    rw [items_trees] at this
    cases ps with
    | nil => exact this
    | cons p ps =>
      rw [pieces_object hc]
      show Derives A g .primary _ _
      simpa [tokens_operands] using this
  | @property g w k v hk hv ih =>
    rw [pieces_property hc, key_operand hk]
    exact .property hk (hv.operand_derives ih Level.assign)
  | @computedProperty g k v hk hv ihk ihv =>
    rw [pieces_computed hc]
    show Derives A g .property _ _
    simpa using Derives.computedProperty (hk.operand_derives ihk Level.assign) (hv.operand_derives ihv Level.assign)
  | @arrow g isAsync params body hps hb ih =>
    obtain ⟨hhead, hbody⟩ := hb.body_derives hc ih rfl
    have := Derives.arrow hps hhead hbody
    rw [pieces_arrow hc hb.not_block]
    show Derives A g .assignment _ _
    rw [← params_tokens (c := c), ← tokens_arguments] at this
    cases isAsync with
    | true => simpa using this
    | false => simpa using this
  | @unary g op e hop he ih =>
    rw [pieces_unary hc]
    show Derives A g .unary _ _
    have := Derives.unary hop (he.operand_derives ih Level.unary)
    cases unaryGap op e with
    | true => simpa using this
    | false => simpa using this
  | @update g op isPrefix e hop ht he ih =>
    cases isPrefix with
    | true =>
      rw [pieces_before hc, tokens_mark]
      exact .before hop ht (he.operand_derives ih Level.unary)
    | false =>
      rw [pieces_after hc, tokens_append]
      exact .after hop ht (he.operand_derives ih Level.call)
  | binary hop hl hr ihl ihr => exact binary_derives hc hl hr ihl ihr hop
  | @logical g op l r hop hl hr ihl ihr =>
    rw [symbol]
    split
    next hq =>
      subst hq
      exact coalesce_derives hc hl hr ihl ihr
    next hq => exact logical_derives hc hl hr ihl ihr hop hq
  | @assignment g op l r hop ht hl hr ihl ihr =>
    rw [pieces_assignment hc]
    show Derives A g .assignment _ _
    simpa using Derives.assignment hop ht (hl.operand_derives ihl Level.call) (hr.operand_derives ihr Level.assign)
  | @conditional g t y n ht hy hn iht ihy ihn =>
    rw [pieces_conditional hc]
    show Derives A g .conditional _ _
    simpa using Derives.conditional (ht.operand_derives iht Level.nullish) (hy.operand_derives ihy Level.assign)
      (hn.operand_derives ihn Level.assign)
  | @call g p e as opt hp he has ih iha =>
    rw [pieces_call hc]
    show Derives A g ((symbol e).base.called opt) _ _
    have := Derives.call opt (isChain_base _) (he.callee_derives hp ih) (items_derive has iha)
    rw [items_trees, ← tokens_arguments] at this
    cases opt with
    | true => simpa using this
    | false => simpa using this
  | @new g e as he has ih iha =>
    have hcallee : Derives A g .member (tokens (enclose e.newCalleeNeedsParens (pieces e c))) e := by
      apply ih.enclose
      · exact fun _ => ⟨.single (by decide), he.reaches_expression⟩
      · intro hb
        rcases he.callee hb with hs | hs
        · rw [hs]; exact .refl
        · rw [hs]; exact .single (by decide)
    have := Derives.new hcallee (items_derive has iha)
    rw [items_trees, ← tokens_arguments] at this
    rw [pieces_new hc]
    show Derives A g .member _ _
    simpa using this
  | @member g p e name v opt hp he hn ih =>
    rw [pieces_member hc]
    show Derives A g ((symbol e).base.accessed opt) _ _
    simpa using Derives.member opt (isChain_base _) (he.object_derives hp ih) hn
  | @index g p e i opt hp he hi ih ihi =>
    rw [pieces_index hc]
    show Derives A g ((symbol e).base.accessed opt) _ _
    have := Derives.index opt (isChain_base _) (he.object_derives hp ih) (hi.operand_derives ihi Level.sequence)
    cases opt with
    | true => simpa using this
    | false => simpa using this
  | @chain g e he ih =>
    have hs : symbol e = .optional := he.allows
    rw [hs] at ih
    exact .chain ih
  | @await g e ha he ih =>
    rw [pieces_await hc]
    exact .await ha (he.operand_derives ih Level.unary)
  | @sequence g es hlen hes ih =>
    have := Derives.sequence (by rw [items, List.length_map]; exact hlen) (items_derive hes ih)
    rw [items_trees, ← tokens_operands, ← listed_eq hc] at this
    exact this

end Graft.Grammar
