import Graft.Proofs.Print.Nesting
/-!
# What places and lists leave outside of brackets

Two statements about a printed form carry over to what the places of operands, the lists and the functions make of it. It is
`Paired` if its brackets pair off. It is `Clear` if, besides, there is no semicolon outside of them, and in a context without `in`
no `in` either. An operand that is a bare `in` itself is clear only with the parentheses that its place puts around it.
-/

namespace Graft

open Lexical

namespace Tree
variable {t : Tree} {ts : List Tree} {printed : Printed} {c : PrintContext} {least : Nat} {ps qs : Pieces} {b : Bool}
  {s s' : List Bracket} {q : String → Prop}

/-- The brackets of the pieces pair off. -/
def Paired (ps : Pieces) : Prop := Passes (fun _ => True) [] ps []

/-- A token that may stand outside of brackets: no semicolon and, where `in` is taken, no `in`. -/
def Inline (noIn : Bool) (w : String) : Prop := w ≠ ";" ∧ (noIn = true → w ≠ "in")

def Clear (noIn : Bool) (ps : Pieces) : Prop := Passes (Inline noIn) [] ps []

/-- All is in brackets. -/
def Enclosed (ps : Pieces) : Prop := ∀ (q : String → Prop) (s : List Bracket), Passes q s ps s

def PrintsPaired (t : Tree) : Prop := ∀ c, Paired (pieces t c)

def PrintsClear (t : Tree) : Prop := ∀ c, Clear (c.noIn && !t.node.isBareIn) (pieces t c)

def PrintsEnclosed (t : Tree) : Prop := ∀ c, Enclosed (pieces t c)

def isInline (w : String) : Bool := w ≠ ";" && w ≠ "in"

/-! ## Pieces -/

/-- Fixed pieces of a statement. -/
theorem paired_fixed (h : follow (fun _ => true) s ps = some s') : Passes (fun _ => True) s ps s' :=
  .fixed (fun _ _ => trivial) h

/-- Fixed pieces without `;` and `in`. -/
theorem clear_fixed (h : follow isInline s ps = some s') : Passes (Inline b) s ps s' := by
  refine .fixed (fun w hw => ?_) h
  obtain ⟨h1, h2⟩ : w ≠ ";" ∧ w ≠ "in" := by simpa [isInline] using hw
  exact ⟨h1, fun _ => h2⟩

theorem Clear.paired (h : Clear b ps) : Paired ps := h.mono fun _ _ => trivial

/-- Where `in` is free, less is asked. -/
theorem Clear.weaken (h : Clear b ps) (b' : Bool) : Clear (b && b') ps :=
  h.mono fun _ hw => ⟨hw.1, fun hb => hw.2 (Bool.and_eq_true_iff.1 hb).1⟩

theorem clear_optionally (h : Clear b ps) (x : Bool) : Clear b (optionally x ps) := by
  cases x with
  | false => exact .nil
  | true => exact h

theorem passes_elim {p : String → Prop} {o : Option Tree} {printed : Tree → Pieces} (h : ∀ t ∈ o, Passes p s (printed t) s) :
    Passes p s (o.elim [] printed) s := by
  cases o with
  | none => exact .nil
  | some t => exact h t rfl

/-! ## Places -/

theorem enclosed_group {o c : String} {b : Bracket} (ho : opening? o = some b) (hc : closing? c = some b) (h : Paired ps) :
    Enclosed (.mark o :: ps ++ [.mark c]) := fun _ _ => .group ho hc h

theorem enclosed_parenthesized (h : ∀ c, Paired (printed c)) : Enclosed (parenthesized printed c) :=
  enclosed_group rfl rfl (h c.withIn)

section Paired
variable (h : ∀ c, Paired (printed c))
include h

theorem paired_asOperand : Paired (asOperand t printed least c) := by
  unfold asOperand
  split
  next => exact enclosed_parenthesized h _ _
  next => exact h c

theorem paired_asStatement : Paired (asStatement t printed c) := by
  unfold asStatement
  split
  next => exact h c
  next =>
    split
    next => exact h c
    next => exact (paired_asOperand h).append (paired_fixed rfl)

theorem paired_asKey {computed : Bool} : Paired (asKey computed t printed c) := by
  unfold asKey
  split
  next => exact enclosed_group rfl rfl (paired_asOperand h) _ _
  next => exact paired_asOperand h

end Paired

/-- A comparison binds too loosely to be a callee by itself. -/
theorem isBareIn_of_newCallee (hn : t.newCalleeNeedsParens = false) : t.node.isBareIn = false := by
  obtain ⟨n⟩ := t
  cases n with
  | binaryExpression operator l r =>
    by_contra hin
    obtain rfl : operator = "in" := by simpa [node, Node.isBareIn] using hin
    have hlevel : decide (Level.relational < Level.call) = false := hn
    exact absurd hlevel (by decide)
  | _ => rfl

section Clear
variable (h : ∀ c, Clear (c.noIn && !t.node.isBareIn) (printed c))
include h

theorem clear_parenthesized : Clear b (parenthesized printed c) := enclosed_parenthesized (fun c => (h c).paired) _ _

theorem clear_asOperand : Clear c.noIn (asOperand t printed least c) := by
  unfold asOperand
  split
  next => exact clear_parenthesized h
  next hbare =>
    refine (h c).mono fun w hw => ⟨hw.1, fun hc => hw.2 ?_⟩
    rw [hc, Bool.true_and] at hbare ⊢
    simp only [Bool.or_eq_true, not_or] at hbare
    simpa using hbare.2

theorem clear_asForced {force : Bool} : Clear c.noIn (asForced force t printed least c) := by
  unfold asForced
  split
  next => exact clear_parenthesized h
  next => exact clear_asOperand h

theorem clear_asChainObject : Clear c.noIn (asChainObject t printed c) := by
  unfold asChainObject
  split
  next => exact clear_parenthesized h
  next => exact clear_asOperand h

theorem clear_asMemberObject : Clear c.noIn (asMemberObject t printed c) := by
  unfold asMemberObject
  split
  next => exact clear_parenthesized h
  next => exact clear_asChainObject h

theorem clear_asNewCallee : Clear c.noIn (asNewCallee t printed c) := by
  unfold asNewCallee
  split
  next => exact clear_parenthesized h
  next hn =>
    have := h c
    rwa [isBareIn_of_newCallee (Bool.eq_false_iff.2 hn), Bool.not_false, Bool.and_true] at this

end Clear

theorem PrintsClear.paired (h : t.PrintsClear) : t.PrintsPaired := fun c => (h c).paired

/-! ## Lists -/

theorem clear_listed (h : ∀ t ∈ ts, t.PrintsClear) : Clear c.noIn (listed ts c) := by
  induction ts with
  | nil => exact .nil
  | cons t ts ih =>
    have ht : Clear c.noIn (asOperand t (pieces t) Level.assign c) := clear_asOperand (h t List.mem_cons_self)
    have hts := ih fun u hu => h u (List.mem_cons_of_mem _ hu)
    cases ts with
    | nil => simpa [listed] using ht
    | cons u us =>
      rw [listed]
      · exact (ht.append (clear_fixed rfl)).append hts
      · nofun

theorem enters_listed (h : ∀ t ∈ ts, t.PrintsClear) : Passes q s (.mark "(" :: listed ts c) (.round :: s) :=
  .cons (.opens rfl .done) (clear_listed h).paired.inside

theorem clear_slots {elements : List (Option Tree)} (h : ∀ t ∈ elements.filterMap id, t.PrintsClear) :
    Clear c.noIn (slots elements c) := by
  induction elements with
  | nil => exact .nil
  | cons e elements ih =>
    have hes := ih fun u hu => h u (by cases e <;> simp_all)
    cases e with
    | none =>
      cases elements with
      | nil => exact .nil
      | cons d ds =>
        rw [slots]
        · have hcomma : Clear c.noIn [.mark ",", .blank] := clear_fixed rfl
          exact hcomma.append hes
        · nofun
    | some t =>
      have ht : Clear c.noIn (asOperand t (pieces t) Level.assign c) := clear_asOperand (h t (by simp))
      cases elements with
      | nil => simpa [slots] using ht
      | cons d ds =>
        rw [slots]
        · exact (ht.append (clear_fixed rfl)).append hes
        · nofun

theorem paired_programLines (h : ∀ t ∈ ts, t.PrintsPaired) : Paired (programLines ts c) := by
  induction ts with
  | nil => exact .nil
  | cons t ts ih =>
    have ht : Paired (asStatement t (pieces t) c) := paired_asStatement (h t List.mem_cons_self)
    have hts := ih fun u hu => h u (List.mem_cons_of_mem _ hu)
    cases ts with
    | nil => simpa [programLines] using ht
    | cons u us =>
      rw [programLines]
      · exact ht.append (Passes.cons (paired_fixed rfl) hts)
      · nofun

theorem paired_lines (h : ∀ t ∈ ts, t.PrintsPaired) : Paired (lines ts c) := by
  induction ts with
  | nil => exact .nil
  | cons t ts ih =>
    have ht : Paired (asStatement t (pieces t) c) := paired_asStatement (h t List.mem_cons_self)
    rw [lines]
    exact Passes.append (Passes.cons (paired_fixed rfl) ht) (ih fun u hu => h u (List.mem_cons_of_mem _ hu))

theorem enclosed_block (h : ∀ t ∈ ts, t.PrintsPaired) : Enclosed (block ts c) := by
  cases ts with
  | nil => exact enclosed_group rfl rfl .nil
  | cons t ts =>
    have ht : Paired (asStatement t (pieces t) c.deeper.withIn) := paired_asStatement (h t List.mem_cons_self)
    have hts : Paired (lines ts c.deeper.withIn) := paired_lines fun u hu => h u (List.mem_cons_of_mem _ hu)
    intro q s
    have hopen : Passes q s [.mark "\x7b", .line (c.depth + 1)] (.curly :: s) := .opens rfl .done
    have hclose : Passes q (.curly :: s) [.line c.depth, .mark "\x7d"] s := .closes rfl .done
    exact ((hopen.append ht.inside).append hts.inside).append hclose

theorem paired_furtherMembers (h : ∀ t ∈ ts, t.PrintsPaired) : Paired (furtherMembers ts c) := by
  induction ts with
  | nil => exact .nil
  | cons t ts ih =>
    have ht : Paired (asOperand t (pieces t) Level.assign c) := paired_asOperand (h t List.mem_cons_self)
    rw [furtherMembers]
    exact ((paired_fixed rfl).append ht).append (ih fun u hu => h u (List.mem_cons_of_mem _ hu))

theorem enclosed_braced (h : ∀ t ∈ ts, t.PrintsPaired) : Enclosed (braced ts c) := by
  cases ts with
  | nil => exact enclosed_group rfl rfl .nil
  | cons t ts =>
    have ht : Paired (asOperand t (pieces t) Level.assign c) := paired_asOperand (h t List.mem_cons_self)
    have hts : Paired (furtherMembers ts c) := paired_furtherMembers fun u hu => h u (List.mem_cons_of_mem _ hu)
    intro q s
    have hopen : Passes q s [.mark "\x7b", .blank] (.curly :: s) := .opens rfl .done
    have hclose : Passes q (.curly :: s) [.blank, .mark "\x7d"] s := .closes rfl .done
    rw [braced]
    exact ((hopen.append ht.inside).append hts.inside).append hclose

theorem paired_switchCases (h : ∀ t ∈ ts, ∀ c, Paired (switchCase t c)) : Paired (switchCases ts c) := by
  induction ts with
  | nil => exact .nil
  | cons t ts ih => exact (h t List.mem_cons_self c).append (ih fun u hu => h u (List.mem_cons_of_mem _ hu))

theorem clear_declarators (h : ∀ t ∈ ts, ∀ c, Clear c.noIn (asDeclarator t (declarator t) (pieces t) c)) :
    Clear c.noIn (declarators ts c) := by
  induction ts with
  | nil => exact .nil
  | cons t ts ih =>
    have ht := h t List.mem_cons_self c
    have hts := ih fun u hu => h u (List.mem_cons_of_mem _ hu)
    cases ts with
    | nil => simpa [declarators] using ht
    | cons u us =>
      rw [declarators]
      · exact (ht.append (clear_fixed rfl)).append hts
      · nofun

theorem paired_memberLines (h : ∀ t ∈ ts, ∀ c, Paired (asMember t (classMember t) (pieces t) c)) :
    Paired (memberLines ts c) := by
  induction ts with
  | nil => exact .nil
  | cons t ts ih =>
    rw [memberLines]
    exact Passes.append (.cons (paired_fixed rfl) (h t List.mem_cons_self c)) (ih fun u hu => h u (List.mem_cons_of_mem _ hu))

/-! ## Functions and classes -/

theorem enclosed_asStatement (hb : t.node.isBlock = true) (h : t.PrintsEnclosed) : Enclosed (asStatement t (pieces t) c) := by
  obtain ⟨n⟩ := t
  cases n with
  | blockStatement body => exact h c
  | _ => cases hb

theorem clear_function {f : Func Tree} (hid : ∀ t ∈ f.id, t.PrintsClear) (hparams : ∀ t ∈ f.params, t.PrintsClear)
    (hblock : f.body.node.isBlock = true) (hbody : f.body.PrintsEnclosed) : Clear c.noIn (function f c) := by
  obtain ⟨id, params, body, isAsync, generator⟩ := f
  have hword : Clear c.noIn (optionally isAsync [.mark "async", .blank] ++
      .mark "function" :: optionally generator [.mark "*"] ++ [.blank]) :=
    ((clear_optionally (clear_fixed rfl) _).append (.cons (clear_fixed rfl) (clear_optionally (clear_fixed rfl) _))).append
      (clear_fixed rfl)
  have hname : Clear c.noIn (id.elim [] fun t => asOperand t (pieces t) Level.primary c) :=
    passes_elim fun t ht => clear_asOperand (hid t ht)
  have hclose : Passes (Inline c.noIn) [.round] [.mark ")", .blank] [] := clear_fixed rfl
  have hrest : Clear c.noIn (asStatement body (pieces body) c) := enclosed_asStatement hblock hbody _ _
  cases id <;> exact (((hword.append hname).append (enters_listed hparams)).append hclose).append hrest

theorem paired_signature {f : Func Tree} (hparams : ∀ t ∈ f.params, t.PrintsClear) (hbody : f.body.PrintsPaired) :
    Paired (signature f c) := by
  obtain ⟨id, params, body, isAsync, generator⟩ := f
  have hclose : Passes (fun _ => True) [.round] [.mark ")", .blank] [] := paired_fixed rfl
  exact ((enters_listed hparams).append hclose).append (paired_asStatement hbody)

theorem clear_arrow {f : Func Tree} (hparams : ∀ t ∈ f.params, t.PrintsClear)
    (hbody : f.body.node.isBlock = true ∧ f.body.PrintsEnclosed ∨ f.body.node.isBlock = false ∧ f.body.PrintsClear) :
    Clear c.noIn (arrow f c) := by
  obtain ⟨id, params, body, isAsync, generator⟩ := f
  have hb : Clear c.noIn (if body.node.isBlock then asStatement body (pieces body) c
      else if startsWithBrace body then .mark "(" :: asOperand body (pieces body) Level.assign c ++ [.mark ")"]
      else asOperand body (pieces body) Level.assign c) := by
    rcases hbody with ⟨hblock, hbody⟩ | ⟨hblock, hbody⟩
    · rw [if_pos hblock]
      exact enclosed_asStatement hblock hbody _ _
    · rw [if_neg (Bool.eq_false_iff.1 hblock)]
      split
      next => exact enclosed_group rfl rfl (clear_asOperand hbody).paired _ _
      next => exact clear_asOperand hbody
  have hword : Clear c.noIn (optionally isAsync [.mark "async", .blank]) := clear_optionally (clear_fixed rfl) _
  have hclose : Passes (Inline c.noIn) [.round] [.mark ")", .blank, .mark "=>", .blank] [] := clear_fixed rfl
  exact ((hword.append (enters_listed hparams)).append hclose).append hb

theorem clear_classPieces {k : ClassParts Tree} (hid : ∀ t ∈ k.id, t.PrintsClear) (hsuper : ∀ t ∈ k.superClass, t.PrintsClear)
    (hbody : ∀ c, Enclosed (classBody k.body c)) : Clear c.noIn (classPieces k c) := by
  obtain ⟨id, superClass, body⟩ := k
  have hname : Clear c.noIn (id.elim [] fun t => .blank :: asOperand t (pieces t) Level.primary c) :=
    passes_elim fun t ht => .cons (clear_fixed rfl) (clear_asOperand (hid t ht))
  have hextends : Clear c.noIn (superClass.elim [] fun t =>
      [.blank, .mark "extends", .blank] ++ asOperand t (pieces t) Level.call c) :=
    passes_elim fun t ht => .append (clear_fixed rfl) (clear_asOperand (hsuper t ht))
  have hword : Clear c.noIn [.mark "class"] := clear_fixed rfl
  have hblank : Clear c.noIn [.blank] := clear_fixed rfl
  cases id <;> cases superClass <;> exact ((hword.cons hname).append hextends).append (hblank.cons (hbody c _ _))

end Tree
end Graft
