import Mathlib.Logic.Relation
import Graft.Proofs.Print.Grammar
import Graft.Print.Level
/-!
# Well-formed expression trees

`Formed` says which trees are expressions that a program could hold, `Tree.symbol` which nonterminal the text of one comes
from when nothing is put around it. Whatever the tree, that nonterminal is one of those the level of the tree stands for
(`Formed.reaches`).
-/

namespace Graft.Grammar

open Lexical

def binaryOperators : List String := binaries.flatMap (·.operators)

def logicalOperators : List String := logicals.flatMap (·.operators)

/-- An expression, one with an optional access or call at its spine and no end of the chain yet, or a member of an object. -/
inductive Standing where
  | whole | chained | member
  deriving DecidableEq

def Standing.linked (p : Standing) (opt : Bool) : Standing := if opt then chained else p

inductive Formed (A : Alphabet) : Goal → Standing → Tree → Prop
  | leaf {g : Goal} {s : String} {t : Tree} : Leaf A g s t → Formed A g .whole t
  | array {g : Goal} {es : List Tree} : (∀ e ∈ es, Formed A g .whole e) →
    Formed A g .whole (.mk (.arrayExpression (es.map some)))
  | object {g : Goal} {ps : List Tree} : (∀ p ∈ ps, Formed A g .member p) → Formed A g .whole (.mk (.objectExpression ps))
  | property {g : Goal} {s : String} {k v : Tree} : Key A s k → Formed A g .whole v →
    Formed A g .member (.mk (.property k v .init false false false))
  | computedProperty {g : Goal} {k v : Tree} : Formed A g .whole k → Formed A g .whole v →
    Formed A g .member (.mk (.property k v .init true false false))
  | arrow {g : Goal} {isAsync : Bool} {params : List String} {body : Tree} :
    (∀ p ∈ params, IsIdentifier A (g.params isAsync) p) → Formed A ⟨false, isAsync⟩ .whole body →
    Formed A g .whole (arrowTree isAsync params body)
  | unary {g : Goal} {op : String} {e : Tree} : op ∈ unaryOperators → Formed A g .whole e →
    Formed A g .whole (.mk (.unaryExpression op e))
  | update {g : Goal} {op : String} {isPrefix : Bool} {e : Tree} : op ∈ updateOperators → isTarget e = true →
    Formed A g .whole e → Formed A g .whole (.mk (.updateExpression op isPrefix e))
  | binary {g : Goal} {op : String} {l r : Tree} : op ∈ binaryOperators → Formed A g .whole l → Formed A g .whole r →
    Formed A g .whole (.mk (.binaryExpression op l r))
  | logical {g : Goal} {op : String} {l r : Tree} : op ∈ logicalOperators → Formed A g .whole l → Formed A g .whole r →
    Formed A g .whole (.mk (.logicalExpression op l r))
  | assignment {g : Goal} {op : String} {l r : Tree} : op ∈ assignmentOperators → isTarget l = true →
    Formed A g .whole l → Formed A g .whole r → Formed A g .whole (.mk (.assignmentExpression op l r))
  | conditional {g : Goal} {t y n : Tree} : Formed A g .whole t → Formed A g .whole y → Formed A g .whole n →
    Formed A g .whole (.mk (.conditionalExpression t y n))
  | call {g : Goal} {p : Standing} {e : Tree} {as : List Tree} {opt : Bool} : p ≠ .member → Formed A g p e →
    (∀ a ∈ as, Formed A g .whole a) → Formed A g (p.linked opt) (.mk (.callExpression e as opt))
  | new {g : Goal} {e : Tree} {as : List Tree} : Formed A g .whole e → (∀ a ∈ as, Formed A g .whole a) →
    Formed A g .whole (.mk (.newExpression e as))
  | member {g : Goal} {p : Standing} {e : Tree} {name : String} {v : List Char} {opt : Bool} : p ≠ .member →
    Formed A g p e → IsName A name.toList v →
    Formed A g (p.linked opt) (.mk (.memberExpression e (.mk (.identifier name)) false opt))
  | index {g : Goal} {p : Standing} {e i : Tree} {opt : Bool} : p ≠ .member → Formed A g p e → Formed A g .whole i →
    Formed A g (p.linked opt) (.mk (.memberExpression e i true opt))
  | chain {g : Goal} {e : Tree} : Formed A g .chained e → Formed A g .whole (.mk (.chainExpression e))
  | await {g : Goal} {e : Tree} : g.await = true → Formed A g .whole e → Formed A g .whole (.mk (.awaitExpression e))
  | sequence {g : Goal} {es : List Tree} : 2 ≤ es.length → (∀ e ∈ es, Formed A g .whole e) →
    Formed A g .whole (.mk (.sequenceExpression es))

/-! ## Symbols -/

/-- The nonterminal of an access or a call to an expression that comes from `s`, the latter in parentheses if need be. -/
def Symbol.base : Symbol → Symbol
  | .call => .call
  | .optional => .optional
  | _ => .member

/-- The nonterminal that the text of a tree comes from. -/
def symbol : Tree → Symbol
  | .mk (.sequenceExpression _) => .expression
  | .mk (.assignmentExpression ..) => .assignment
  | .mk (.arrowFunctionExpression _) => .assignment
  | .mk (.conditionalExpression ..) => .conditional
  | .mk (.binaryExpression op _ _) => .ofLevel (Level.ofOperator op)
  | .mk (.logicalExpression op _ _) => if op = "??" then .coalesce else .ofLevel (Level.ofOperator op)
  | .mk (.unaryExpression ..) => .unary
  | .mk (.awaitExpression _) => .unary
  | .mk (.updateExpression ..) => .update
  | .mk (.callExpression callee _ opt) => (symbol callee).base.called opt
  | .mk (.newExpression ..) => .member
  | .mk (.memberExpression object _ _ opt) => (symbol object).base.accessed opt
  | .mk (.chainExpression _) => .leftHandSide
  | .mk (.property ..) => .property
  | _ => .primary

/-- `s'` stands for `s` among others, by unit productions. -/
def Reaches (s s' : Symbol) : Prop := Relation.ReflTransGen (fun s s' => s' ∈ s.units) s s'

theorem Derives.reaches {A : Alphabet} {g : Goal} {s s' : Symbol} {ts : List String} {t : Tree} (h : Reaches s s')
    (hd : Derives A g s' ts t) : Derives A g s ts t := by
  induction h using Relation.ReflTransGen.head_induction_on with
  | refl => exact hd
  | head hu _ ih => exact .unit hu ih

/-! ## Levels -/

theorem reaches_succ (n : Nat) : Reaches (.ofLevel n) (.ofLevel (n + 1)) := by
  rcases Nat.lt_or_ge n 18 with h | h
  · have key : ∀ n < 18, Symbol.ofLevel n = .ofLevel (n + 1) ∨ Symbol.ofLevel (n + 1) ∈ (Symbol.ofLevel n).units := by decide
    rcases key n h with he | hu
    · rw [← he]
      exact .refl
    · exact .single hu
  · rcases Nat.eq_or_lt_of_le h with rfl | h
    · have h1 : Reaches .leftHandSide .new := .single (by decide)
      have h2 : Reaches .new .member := .single (by decide)
      have h3 : Reaches .member .primary := .single (by decide)
      exact (h1.trans h2).trans h3
    · obtain ⟨k, rfl⟩ := Nat.exists_eq_add_of_le' h
      exact .refl

theorem reaches_of_le {n m : Nat} (h : n ≤ m) : Reaches (.ofLevel n) (.ofLevel m) := by
  induction h with
  | refl => exact .refl
  | step _ ih => exact ih.trans (reaches_succ _)

theorem reaches_primary (n : Nat) : Reaches (.ofLevel n) .primary := by
  have h : Symbol.ofLevel (max n 19) = .primary := by
    obtain ⟨k, hk⟩ := Nat.exists_eq_add_of_le' (Nat.le_max_right n 19)
    rw [hk]
    rfl
  exact h ▸ reaches_of_le (Nat.le_max_left n 19)

/-! ## The symbols of well-formed trees -/

variable {A : Alphabet} {g : Goal} {p : Standing} {t e : Tree}

theorem Leaf.symbol {s : String} (h : Leaf A g s t) : symbol t = .primary ∧ t.level = Level.primary := by
  cases h <;> exact ⟨rfl, rfl⟩

/-- The symbols that a standing allows. -/
def Standing.Allows : Standing → Symbol → Prop
  | .whole, s => s ≠ .optional ∧ s ≠ .property
  | .chained, s => s = .optional
  | .member, s => s = .property

theorem Standing.Allows.base {s : Symbol} (h : p.Allows s) (hp : p ≠ .member) :
    p = .whole ∧ (s.base = .member ∨ s.base = .call) ∨ p = .chained ∧ s.base = .optional := by
  cases p with
  | whole =>
    refine .inl ⟨rfl, ?_⟩
    cases s with
    | optional => exact absurd rfl h.1
    | call => exact .inr rfl
    | _ => exact .inl rfl
  | chained =>
    obtain rfl : s = .optional := h
    exact .inr ⟨rfl, rfl⟩
  | member => exact absurd rfl hp

theorem Standing.Allows.accessed {s : Symbol} (h : p.Allows s) (hp : p ≠ .member) (opt : Bool) :
    (p.linked opt).Allows (s.base.accessed opt) := by
  cases opt with
  | true => rfl
  | false =>
    rcases h.base hp with ⟨rfl, hb | hb⟩ | ⟨rfl, hb⟩
    · rw [hb]; exact ⟨nofun, nofun⟩
    · rw [hb]; exact ⟨nofun, nofun⟩
    · rw [hb]; rfl

theorem Standing.Allows.called {s : Symbol} (h : p.Allows s) (hp : p ≠ .member) (opt : Bool) :
    (p.linked opt).Allows (s.base.called opt) := by
  cases opt with
  | true => rfl
  | false =>
    rcases h.base hp with ⟨rfl, hb | hb⟩ | ⟨rfl, hb⟩
    · rw [hb]; exact ⟨nofun, nofun⟩
    · rw [hb]; exact ⟨nofun, nofun⟩
    · rw [hb]; rfl

theorem ofLevel_ne (n : Nat) : Symbol.ofLevel n ≠ .optional ∧ Symbol.ofLevel n ≠ .property := by
  rcases Nat.lt_or_ge n 19 with h | h
  · revert h; revert n; decide
  · obtain ⟨k, rfl⟩ := Nat.exists_eq_add_of_le' h
    exact ⟨nofun, nofun⟩

theorem Formed.allows (h : Formed A g p t) : p.Allows (symbol t) := by
  induction h with
  | leaf hl =>
    rw [hl.symbol.1]
    exact ⟨nofun, nofun⟩
  | property => rfl
  | computedProperty => rfl
  | @binary g op _ _ _ _ _ _ _ => exact ofLevel_ne (Level.ofOperator op)
  | @logical g op _ _ _ _ _ _ _ =>
    rw [symbol]
    split
    · exact ⟨nofun, nofun⟩
    · exact ofLevel_ne (Level.ofOperator op)
  | call hp _ _ ih _ => exact ih.called hp _
  | member hp _ _ ih => exact ih.accessed hp _
  | index hp _ _ ih _ => exact ih.accessed hp _
  | _ => exact ⟨nofun, nofun⟩

theorem called_cases (s : Symbol) (opt : Bool) : s.called opt = .optional ∨ s.called opt = .call := by
  unfold Symbol.called
  split
  · exact .inl rfl
  · exact .inr rfl

theorem accessed_cases (s : Symbol) (opt : Bool) :
    s.base.accessed opt = .optional ∨ s.base.accessed opt = .call ∨ s.base.accessed opt = .member := by
  cases opt with
  | true => exact .inl rfl
  | false => cases s <;> simp [Symbol.base, Symbol.accessed]

theorem reaches_call : Reaches .leftHandSide .call := .single (by decide)

theorem reaches_member : Reaches .leftHandSide .member := by
  have h : Reaches .leftHandSide .new := .single (by decide)
  exact h.tail (by decide)

/-- The level of an expression stands for its symbol. -/
theorem Formed.reaches (h : Formed A g .whole t) : Reaches (.ofLevel t.level) (symbol t) := by
  have ha := h.allows
  generalize hw : Standing.whole = p at h
  -- What a level stands for in the grammar is the symbol itself, save where several symbols share a level:
  -- an update in front, a `??`, and the links of calls and accesses.
  cases h with
  | leaf hl =>
    rw [hl.symbol.1, hl.symbol.2]
    exact .refl
  | array => exact .refl
  | object => exact .refl
  | property => cases hw
  | computedProperty => cases hw
  | arrow => exact .refl
  | unary => exact .refl
  | @update _ _ isPrefix _ _ _ _ =>
    cases isPrefix with
    | true => exact reaches_succ 16
    | false => exact .refl
  | binary => exact .refl
  | @logical _ op _ _ hop _ _ =>
    rw [symbol]
    split
    · subst op
      exact .single (show Symbol.coalesce ∈ Symbol.shortCircuit.units by decide)
    · exact .refl
  | assignment => exact .refl
  | conditional => exact .refl
  | @call _ _ e _ opt _ _ _ =>
    rw [symbol] at ha ⊢
    rcases called_cases (Grammar.symbol e).base opt with he | he
    · exact absurd he ha.1
    · rw [he]
      exact reaches_call
  | new => exact reaches_member
  | @member _ _ e _ _ opt _ _ _ =>
    rw [symbol] at ha ⊢
    rcases accessed_cases (Grammar.symbol e) opt with he | he | he
    · exact absurd he ha.1
    · rw [he]
      exact reaches_call
    · rw [he]
      exact reaches_member
  | @index _ _ e _ opt _ _ _ =>
    rw [symbol] at ha ⊢
    rcases accessed_cases (Grammar.symbol e) opt with he | he | he
    · exact absurd he ha.1
    · rw [he]
      exact reaches_call
    · rw [he]
      exact reaches_member
  | chain => exact .refl
  | await => exact .refl
  | sequence => exact .refl

theorem ofOperator_le (op : String) : Level.ofOperator op ≤ Level.exponent := by
  unfold Level.ofOperator
  split <;> decide

theorem level_of_callee (h : t.newCalleeNeedsParens = false) : Level.call ≤ t.level := by
  unfold Tree.newCalleeNeedsParens at h
  split at h
  · cases h
  · cases h
  · exact Nat.le_refl _
  · exact Nat.not_lt.1 (of_decide_eq_false h)

theorem level_of_binary {op : String} {l r : Tree} : ¬ Level.call ≤ (Tree.mk (.binaryExpression op l r)).level :=
  fun h => absurd (Nat.le_trans h (ofOperator_le op)) (by decide)

theorem level_of_logical {op : String} {l r : Tree} : ¬ Level.call ≤ (Tree.mk (.logicalExpression op l r)).level :=
  fun h => absurd (Nat.le_trans h (ofOperator_le op)) (by decide)

theorem level_of_update {op : String} {isPrefix : Bool} {e : Tree} :
    ¬ Level.call ≤ (Tree.mk (.updateExpression op isPrefix e)).level := by
  cases isPrefix with
  | true => exact (by decide : ¬ Level.call ≤ Level.unary)
  | false => exact (by decide : ¬ Level.call ≤ Level.postfixUpdate)

theorem base_member {s : Symbol} (h : s = .member ∨ s = .primary) : s.base = .member := by
  rcases h with rfl | rfl <;> rfl

/-- A callee that `new` takes without parentheses. -/
theorem Formed.callee (h : Formed A g .whole t) (hn : t.newCalleeNeedsParens = false) :
    symbol t = .member ∨ symbol t = .primary := by
  have hl := level_of_callee hn
  generalize hw : Standing.whole = p at h
  -- An access is a callee if its object is one. Everything weaker than a call needs parentheses, so its level rules it out.
  induction h with
  | leaf h => exact .inr h.symbol.1
  | array => exact .inr rfl
  | object => exact .inr rfl
  | new => exact .inl rfl
  | @member _ p e _ _ opt _ _ _ ih =>
    cases opt with
    | true => cases hw
    | false =>
      rw [Tree.newCalleeNeedsParens] at hn
      exact .inl (base_member (ih hn (level_of_callee hn) hw))
  | @index _ p e _ opt _ _ _ ih _ =>
    cases opt with
    | true => cases hw
    | false =>
      rw [Tree.newCalleeNeedsParens] at hn
      exact .inl (base_member (ih hn (level_of_callee hn) hw))
  | call => cases hn
  | chain => cases hn
  | property => cases hw
  | computedProperty => cases hw
  | binary => exact absurd hl level_of_binary
  | logical => exact absurd hl level_of_logical
  | update => exact absurd hl level_of_update
  | arrow => exact absurd hl (by decide : ¬ Level.call ≤ Level.assign)
  | assignment => exact absurd hl (by decide : ¬ Level.call ≤ Level.assign)
  | unary => exact absurd hl (by decide : ¬ Level.call ≤ Level.unary)
  | await => exact absurd hl (by decide : ¬ Level.call ≤ Level.unary)
  | conditional => exact absurd hl (by decide : ¬ Level.call ≤ Level.conditional)
  | sequence => exact absurd hl (by decide : ¬ Level.call ≤ Level.sequence)

theorem accessed_base (s : Symbol) (opt : Bool) : (s.base.accessed opt).base = s.base.accessed opt := by
  rcases accessed_cases s opt with h | h | h <;> rw [h] <;> rfl

theorem called_base (s : Symbol) (opt : Bool) : (s.called opt).base = s.called opt := by
  rcases called_cases s opt with h | h <;> rw [h] <;> rfl

theorem ofLevel_base {n : Nat} (h : n ≤ Level.exponent) : (Symbol.ofLevel n).base = .member := by
  have key : ∀ n < 16, (Symbol.ofLevel n).base = .member := by decide
  exact key n (Nat.lt_succ_of_le h)

/-- An object or a callee without parentheses. -/
theorem Formed.bareObject (h : Formed A g p t) (hp : p ≠ .member) (hl : Level.call ≤ t.level) (hc : t.node.isChain = false) :
    Reaches (symbol t).base (symbol t) := by
  have hprimary : Reaches Symbol.primary.base .primary := .single (by decide)
  -- What is not put in parentheses is a primary, a `new` or a link. The others have too low a level.
  cases h with
  | leaf h => rw [h.symbol.1]; exact hprimary
  | array => exact hprimary
  | object => exact hprimary
  | new => exact .refl
  | @member _ _ e _ _ opt _ _ _ =>
    rw [symbol, accessed_base]
    exact .refl
  | @index _ _ e _ opt _ _ _ =>
    rw [symbol, accessed_base]
    exact .refl
  | @call _ _ e _ opt _ _ _ =>
    rw [symbol, called_base]
    exact .refl
  | chain => cases hc
  | property => exact absurd rfl hp
  | computedProperty => exact absurd rfl hp
  | binary => exact absurd hl level_of_binary
  | logical => exact absurd hl level_of_logical
  | update => exact absurd hl level_of_update
  | arrow => exact absurd hl (by decide : ¬ Level.call ≤ Level.assign)
  | assignment => exact absurd hl (by decide : ¬ Level.call ≤ Level.assign)
  | unary => exact absurd hl (by decide : ¬ Level.call ≤ Level.unary)
  | await => exact absurd hl (by decide : ¬ Level.call ≤ Level.unary)
  | conditional => exact absurd hl (by decide : ¬ Level.call ≤ Level.conditional)
  | sequence => exact absurd hl (by decide : ¬ Level.call ≤ Level.sequence)

/-- An object or a callee in parentheses. -/
theorem Formed.closedObject (h : Formed A g p t) (hp : t.level < Level.call ∨ t.node.isChain = true) :
    (symbol t).base = .member := by
  have hcall : ¬ Level.call < Level.call := Nat.lt_irrefl _
  cases h with
  | leaf h => rw [h.symbol.1]; rfl
  | binary => exact ofLevel_base (ofOperator_le _)
  | @logical _ op _ _ _ _ _ =>
    rw [symbol]
    split
    · rfl
    · exact ofLevel_base (ofOperator_le op)
  | member => rcases hp with h | h; exacts [absurd h hcall, nomatch h]
  | index => rcases hp with h | h; exacts [absurd h hcall, nomatch h]
  | call => rcases hp with h | h; exacts [absurd h hcall, nomatch h]
  | _ => rfl

/-! ## Operands of operators -/

theorem binary_operands {op : String} (h : op ∈ binaryOperators) (hop : op ≠ "**") :
    ∃ o ∈ binaries, op ∈ o.operators ∧ o.result = .ofLevel (Level.ofOperator op) ∧
      o.left = .ofLevel (Level.ofOperator op) ∧ o.right = .ofLevel (Level.ofOperator op + 1) := by
  have key : ∀ o ∈ binaries, ∀ op ∈ o.operators, op ≠ "**" → o.result = .ofLevel (Level.ofOperator op) ∧
      o.left = .ofLevel (Level.ofOperator op) ∧ o.right = .ofLevel (Level.ofOperator op + 1) := by decide
  obtain ⟨o, ho, hin⟩ := List.mem_flatMap.1 h
  exact ⟨o, ho, hin, key o ho op hin hop⟩

theorem logical_operands {op : String} (h : op ∈ logicalOperators) (hop : op ≠ "??") :
    ∃ o ∈ logicals, op ∈ o.operators ∧ o.result = .ofLevel (Level.ofOperator op) ∧
      o.left = .ofLevel (Level.ofOperator op) ∧ o.right = .ofLevel (Level.ofOperator op + 1) := by
  have key : ∀ o ∈ logicals, ∀ op ∈ o.operators, op ≠ "??" → o.result = .ofLevel (Level.ofOperator op) ∧
      o.left = .ofLevel (Level.ofOperator op) ∧ o.right = .ofLevel (Level.ofOperator op + 1) := by decide
  obtain ⟨o, ho, hin⟩ := List.mem_flatMap.1 h
  exact ⟨o, ho, hin, key o ho op hin hop⟩

theorem bitOr_le_binary {op : String} (h : op ∈ binaryOperators) : Level.bitOr ≤ Level.ofOperator op := by
  have key : ∀ op ∈ binaryOperators, Level.bitOr ≤ Level.ofOperator op := by decide
  exact key op h

/-- What may stand bare on the left of `**`. -/
theorem Formed.power (h : Formed A g .whole t) (hl : Level.unary ≤ t.level) (hu : t.node.isUnaryOrAwait = false) :
    Reaches .update (symbol t) := by
  rcases Nat.eq_or_lt_of_le hl with he | hlt
  · have hb : ∀ op, Level.unary ≠ Level.ofOperator op := fun op he => absurd (he ▸ ofOperator_le op) (by decide)
    generalize hw : Standing.whole = p at h
    -- On the level of unary operators only an update may be raised to a power.
    cases h with
    | update => exact .refl
    | unary => cases hu
    | await => cases hu
    | leaf h => exact absurd (he.trans h.symbol.2) (by decide)
    | binary => exact absurd he (hb _)
    | logical => exact absurd he (hb _)
    | array => exact absurd he (by decide : ¬ Level.unary = Level.primary)
    | object => exact absurd he (by decide : ¬ Level.unary = Level.primary)
    | property => exact absurd he (by decide : ¬ Level.unary = Level.primary)
    | computedProperty => exact absurd he (by decide : ¬ Level.unary = Level.primary)
    | arrow => exact absurd he (by decide : ¬ Level.unary = Level.assign)
    | assignment => exact absurd he (by decide : ¬ Level.unary = Level.assign)
    | conditional => exact absurd he (by decide : ¬ Level.unary = Level.conditional)
    | sequence => exact absurd he (by decide : ¬ Level.unary = Level.sequence)
    | call => exact absurd he (by decide : ¬ Level.unary = Level.call)
    | new => exact absurd he (by decide : ¬ Level.unary = Level.call)
    | member => exact absurd he (by decide : ¬ Level.unary = Level.call)
    | index => exact absurd he (by decide : ¬ Level.unary = Level.call)
    | chain => exact absurd he (by decide : ¬ Level.unary = Level.call)
  · exact (reaches_of_le hlt).trans h.reaches

/-- Between `??` and the bitwise operators there are only `||` and `&&`. -/
theorem Formed.nullish_gap (h : Formed A g .whole t) (hl : Level.nullish ≤ t.level) (hm : t.node.isAndOr = false) :
    Level.bitOr ≤ t.level ∨ t.level = Level.nullish ∧ symbol t = .coalesce := by
  generalize hw : Standing.whole = p at h
  cases h with
  | @logical _ op =>
    have hop : op = "??" := by simpa [Tree.node, Node.isAndOr] using hm
    subst hop
    exact .inr ⟨rfl, rfl⟩
  | binary hop => exact .inl (bitOr_le_binary hop)
  | leaf h => exact .inl (by rw [h.symbol.2]; decide)
  | @update _ _ isPrefix =>
    cases isPrefix with
    | true => exact .inl (by decide : Level.bitOr ≤ Level.unary)
    | false => exact .inl (by decide : Level.bitOr ≤ Level.postfixUpdate)
  | unary => exact .inl (by decide : Level.bitOr ≤ Level.unary)
  | await => exact .inl (by decide : Level.bitOr ≤ Level.unary)
  | array => exact .inl (by decide : Level.bitOr ≤ Level.primary)
  | object => exact .inl (by decide : Level.bitOr ≤ Level.primary)
  | property => exact .inl (by decide : Level.bitOr ≤ Level.primary)
  | computedProperty => exact .inl (by decide : Level.bitOr ≤ Level.primary)
  | arrow => exact absurd hl (by decide : ¬ Level.nullish ≤ Level.assign)
  | assignment => exact absurd hl (by decide : ¬ Level.nullish ≤ Level.assign)
  | conditional => exact absurd hl (by decide : ¬ Level.nullish ≤ Level.conditional)
  | sequence => exact absurd hl (by decide : ¬ Level.nullish ≤ Level.sequence)
  | call => exact .inl (by decide : Level.bitOr ≤ Level.call)
  | new => exact .inl (by decide : Level.bitOr ≤ Level.call)
  | member => exact .inl (by decide : Level.bitOr ≤ Level.call)
  | index => exact .inl (by decide : Level.bitOr ≤ Level.call)
  | chain => exact .inl (by decide : Level.bitOr ≤ Level.call)

/-- What may stand bare on the left of `??`. -/
theorem Formed.nullishLeft (h : Formed A g .whole t) (hl : Level.nullish ≤ t.level) (hm : t.node.isAndOr = false) :
    Reaches .coalesceHead (symbol t) := by
  rcases h.nullish_gap hl hm with hb | ⟨-, hs⟩
  · have : Reaches .coalesceHead .bitOr := .single (by decide)
    exact (this.trans (reaches_of_le hb)).trans h.reaches
  · rw [hs]
    exact .single (by decide)

/-- What may stand bare on the right of `??`. -/
theorem Formed.nullishRight (h : Formed A g .whole t) (hl : Level.or ≤ t.level) (hm : t.node.isAndOr = false) :
    Reaches .bitOr (symbol t) := by
  rcases h.nullish_gap (Nat.le_of_succ_le hl) hm with hb | ⟨he, -⟩
  · exact (reaches_of_le hb).trans h.reaches
  · rw [he] at hl
    exact absurd hl (by decide)

end Graft.Grammar
