import Graft.Proofs.Source.Weave.Statements
import Graft.Proofs.Source.Programs
/-!
# Programs are woven from their leaves

The texts of the leaves of a program stand in its source in order. Between them there are blanks, comments, punctuators and
keywords only, and decorators (`readProgram_woven`).
-/

namespace Graft.Source

open Read Graft.Tree

variable {cs : List Char}

/-! ## Markup -/

namespace Markup
variable {here rest : List Char} {fuel n : Nat}

theorem tagGap_suffix (cs : List Char) : tagGap cs <:+ cs := skipGap_suffix true cs

theorem cons_suffix {c : Char} (h : tagGap cs = c :: rest) : rest <:+ cs := suffix_of_cons (h ▸ tagGap_suffix cs)

theorem plainName_suffix (h : plainName? cs = some rest) : rest <:+ cs := by
  unfold plainName? at h
  extract_lets gap length at h
  split at h
  next => cases h
  next =>
    cases h
    exact (List.drop_suffix _ _).trans (tagGap_suffix cs)

theorem name_suffix (h : name? cs = some rest) : rest <:+ cs := by
  unfold name? at h
  extract_lets length at h
  split at h
  next => exact plainName_suffix h
  next =>
    cases h
    exact (List.drop_suffix _ _).trans (tagGap_suffix cs)

theorem memberNames_suffix (h : memberNames? n cs = some rest) : rest <:+ cs := by
  induction n generalizing cs with
  | zero => cases h
  | succ n ih =>
    unfold memberNames? at h
    split at h
    next more hgap =>
      obtain ⟨after, hname, hrest⟩ := Option.bind_eq_some_iff.1 h
      exact (ih hrest).trans ((plainName_suffix hname).trans (cons_suffix hgap))
    next =>
      cases h
      exact List.suffix_refl _

theorem elementName_suffix (h : elementName? fuel cs = some rest) : rest <:+ cs := by
  obtain ⟨front, hname, h⟩ := Option.bind_eq_some_iff.1 h
  have hfront := name_suffix hname
  split at h
  next more hgap => exact (name_suffix h).trans ((cons_suffix hgap).trans hfront)
  next =>
    split at h
    next => exact (memberNames_suffix h).trans hfront
    next => cases h
  next =>
    cases h
    exact hfront

theorem attributeName_suffix (h : attributeName? cs = some rest) : rest <:+ cs := by
  obtain ⟨front, hname, h⟩ := Option.bind_eq_some_iff.1 h
  have hfront := name_suffix hname
  split at h
  next more hgap => exact (name_suffix h).trans ((cons_suffix hgap).trans hfront)
  next =>
    cases h
    exact hfront

theorem referenceEnd_suffix (h : referenceEnd? cs = some rest) : rest <:+ cs := by
  have ended {test : Char → Bool} {most : Nat} {cs : List Char}
      (h : (if 0 < (cs.takeWhile test).length && (cs.takeWhile test).length ≤ most &&
        (cs.drop (cs.takeWhile test).length).head? = some ';'
        then some (cs.drop ((cs.takeWhile test).length + 1)) else none) = some rest) :
      rest <:+ cs := by
    split at h
    next =>
      cases h
      exact List.drop_suffix _ _
    next => cases h
  unfold referenceEnd? at h
  extract_lets test at h
  split at h
  next x more =>
    split at h
    next => exact (ended h).trans (suffix_of_cons (List.suffix_cons _ _))
    next => exact (ended h).trans (List.suffix_cons _ _)
  next => exact ended h

theorem quotedEnd_suffix {quote : Char} (h : quotedEnd? quote n cs = some rest) : rest <:+ cs := by
  induction n generalizing cs with
  | zero => cases h
  | succ n ih =>
    cases cs with
    | nil => cases h
    | cons c cs =>
      have hcs : cs <:+ c :: cs := List.suffix_cons c cs
      unfold quotedEnd? at h
      split at h
      next =>
        cases h
        exact hcs
      next =>
        split at h
        next =>
          split at h
          next d more =>
            split at h
            next =>
              obtain ⟨after, hreference, hrest⟩ := Option.bind_eq_some_iff.1 h
              exact (ih hrest).trans ((referenceEnd_suffix hreference).trans hcs)
            next => exact (ih h).trans (suffix_of_cons hcs)
          next => cases h
        next => exact (ih h).trans hcs

theorem closingTag_suffix (h : closingTag? fuel cs = some rest) : rest <:+ cs := by
  unfold closingTag? at h
  split at h
  next more hgap =>
    cases h
    refine (cons_suffix hgap).trans ?_
    cases hname : elementName? fuel cs with
    | none => exact List.suffix_refl _
    | some after => exact elementName_suffix hname
  next => cases h

section Readers
variable {drops : List Char → List Char → Prop} {read : Readers} {P : State → Prop} (hread : WeaveReaders drops read)
include hread

theorem embedded_suffix : Leads P (embedded read fuel cs) fun rest _ => rest <:+ cs := by
  have begins : Facing cs (State.ofText true cs) := ⟨State.ofText_lexed true cs, skipGap_suffix true cs⟩
  refine .set begins (.look fun _ => ?_)
  extract_lets finish
  have hfinish (u : Unit) : Leads (Facing cs) (finish u) fun rest _ => rest <:+ cs := by
    refine .look fun _ => .guardBind fun _ => .get fun s h => .pure fun _ _ => ?_
    exact h.lexed.rest_suffix.trans h.suffix
  have argument : Leads (Facing cs) (expressionTree read .inner) fun _ => Facing cs :=
    .mono (.onward drops fun _ => expressionTree_weaves hread) fun _ _ h => h.facing
  have several : Leads (Facing cs) (expressions read fuel .inner) fun _ => Facing cs :=
    .mono (.onward drops fun _ => expressions_weaves hread) fun _ _ h => h.facing
  refine .ite (fun _ => .ifPunctOnward ?_ ?_) fun _ => hfinish ()
  · exact .of (fun _ h => h.facing) (.bind argument fun _ => hfinish ())
  · exact .bind several fun _ => hfinish ()

theorem nested_suffix : Leads P (nested read cs) fun rest _ => rest <:+ cs := by
  have begins : Facing cs (State.ofText false cs) := ⟨State.ofText_lexed false cs, skipGap_suffix false cs⟩
  exact .set begins (.look fun _ => .guardBind fun _ => hread.markup cs)

theorem attributeValue_suffix : Leads P (attributeValue read fuel cs) fun rest _ => rest <:+ cs := by
  unfold attributeValue
  split
  next more hgap => exact .mono (embedded_suffix hread) fun _ _ h => h.trans (cons_suffix hgap)
  next more hgap => exact .mono (nested_suffix hread) fun _ _ h => h.trans (hgap ▸ tagGap_suffix cs)
  next more hgap =>
    exact .guardBind fun _ => .require fun _ hrest _ _ => (quotedEnd_suffix hrest).trans (cons_suffix hgap)
  next => exact .failure

omit hread in
/-- What a reader of a later text gives is an end of this one too. -/
theorem suffix_bind {α : Type} {r : Read (List Char)} {f : List Char → Read α} {Q : α → State → Prop}
    (hr : Leads P r fun rest _ => rest <:+ cs) (hf : ∀ rest, rest <:+ cs → Leads (fun _ => True) (f rest) Q) :
    Leads P (r >>= f) Q := .bind hr fun rest => .given (fun _ h => h) fun h => .of (fun _ _ => trivial) (hf rest h)

theorem attributes_suffix (n : Nat) : Leads P (attributes read fuel n cs) fun rest _ => rest <:+ cs := by
  induction n generalizing cs P with
  | zero => exact .failure
  | succ n ih =>
    have later {rest : List Char} (h : rest <:+ cs) :
        Leads (fun _ => True) (attributes read fuel n rest) fun rest _ => rest <:+ cs :=
      .mono ih fun _ _ hrest => hrest.trans h
    unfold attributes
    split
    next more hgap => exact suffix_bind (embedded_suffix hread) fun rest h => later (h.trans (cons_suffix hgap))
    next =>
      split
      next after hname =>
        have hafter : after <:+ cs := (attributeName_suffix hname).trans (tagGap_suffix cs)
        split
        next value hgap =>
          refine suffix_bind (attributeValue_suffix hread) fun rest h => later ?_
          exact h.trans ((cons_suffix hgap).trans hafter)
        next => exact .of (fun _ _ => trivial) (later hafter)
      next => exact .pure fun _ _ => tagGap_suffix cs

theorem children_suffix (n : Nat) : Leads P (children read fuel n cs) fun rest _ => rest <:+ cs := by
  induction n generalizing cs P with
  | zero => exact .failure
  | succ n ih =>
    have later {rest : List Char} (h : rest <:+ cs) :
        Leads (fun _ => True) (children read fuel n rest) fun rest _ => rest <:+ cs :=
      .mono ih fun _ _ hrest => hrest.trans h
    unfold children
    split
    next => exact .failure
    next more => exact suffix_bind (embedded_suffix hread) fun rest h => later (h.trans (List.suffix_cons _ _))
    next more =>
      refine .requireBind fun after hafter => .of (fun _ _ => trivial) (later ?_)
      exact (referenceEnd_suffix hafter).trans (List.suffix_cons _ _)
    next more =>
      refine .require fun after hafter _ _ => ?_
      exact (closingTag_suffix hafter).trans (suffix_of_cons (List.suffix_cons _ _))
    next more =>
      refine .of (fun _ _ => trivial) (later ((List.dropWhile_suffix _).trans ?_))
      exact suffix_of_cons (suffix_of_cons (suffix_of_cons (List.suffix_cons _ _)))
    next => exact suffix_bind (nested_suffix hread) fun rest h => later h
    next => exact .ite (fun _ => .failure) fun _ => .of (fun _ _ => trivial) (later (List.suffix_cons _ _))

end Readers
end Markup

section Readers
variable {drops : List Char → List Char → Prop} {read : Readers} {fuel : Nat} (hread : WeaveReaders drops read)
include hread

open Markup in
theorem markup_suffix : Leads (Facing cs) (markup read fuel) fun rest _ => rest <:+ cs := by
  refine .textAhead fun s h => ?_
  extract_lets front
  have hfront : front <:+ cs := (List.drop_suffix _ _).trans h.suffix
  split
  next more hgap => exact .mono (children_suffix hread fuel) fun _ _ hrest => hrest.trans ((cons_suffix hgap).trans hfront)
  next =>
    refine .requireBind fun after hafter => ?_
    refine suffix_bind (?_ : Leads _ _ fun inside _ => inside <:+ cs) fun inside hinside => ?_
    · refine .mono (attributes_suffix hread fuel) fun _ _ hrest => ?_
      exact hrest.trans ((elementName_suffix hafter).trans hfront)
    · split
      next more hgap => exact .pure fun _ _ => (suffix_of_cons (cons_suffix hgap)).trans hinside
      next more hgap => exact .mono (children_suffix hread fuel) fun _ _ hrest => hrest.trans ((cons_suffix hgap).trans hinside)
      next => exact .failure

end Readers

/-! ## Programs -/

/-- A decorator stands between two points of a text, the second given by what follows it. -/
def Decorates (here rest : List Char) : Prop :=
  ∃ sense steps fuel s s', s.Lexed ∧ (decorator (readers sense steps) fuel).run s = some ((), s') ∧
    s.start = here ∧ s'.previous = rest

theorem readers_weave (sense : AwaitSense) (n : Nat) : WeaveReaders Decorates (readers sense n) := by
  have decorates (n fuel : Nat) (s s' : State) (hs : s.Lexed) (he : (decorator (readers sense n) fuel).run s = some ((), s')) :
      Decorates s.start s'.previous := ⟨sense, n, fuel, s, s', hs, he, rfl, rfl⟩
  induction n with
  | zero =>
    exact {
      expression := fun _ _ _ => .failure
      operation := fun _ _ _ _ => .failure
      unary := fun _ _ _ => .failure
      statement := fun _ _ => .failure
      markup := fun _ => .failure
      awaitSense := fun _ => .failure
      decorator := decorates 0 }
  | succ n ih =>
    exact {
      expression := fun _ _ _ => operation_weaves ih
      operation := fun _ _ _ _ => operation_weaves ih
      unary := fun _ _ _ => unary_weaves ih
      statement := fun _ _ => statement_weaves ih
      markup := fun _ => markup_suffix ih
      awaitSense := fun _ => .pure fun _ h => h
      decorator := decorates (n + 1) }

/-- A decorator begins with its mark. -/
theorem Decorates.mark {here rest : List Char} (h : Decorates here rest) : '@' ∈ here := by
  obtain ⟨sense, steps, fuel, s, s', hs, he, rfl, -⟩ := h
  obtain ⟨⟨u, s₁⟩, hpunct, -⟩ := Option.bind_eq_some_iff.1 he
  have htaken : Leads (fun s' => s' = s) (punct "@") fun _ _ => s.token = .punct "@" :=
    .isPunct fun _ => .ite (fun hb => .advanced fun _ h => h.1 ▸ h.2 hb) fun _ => .failure
  have ht : s.token = .punct "@" := htaken s u s₁ rfl hpunct
  rcases hs.token with htoken | ⟨w, hw, -⟩
  · have hchars := nextToken_chars htoken (by rw [ht]; nofun)
    rw [← hchars, ht]
    exact List.mem_append_left _ (by decide)
  · rw [ht] at hw
    cases hw

theorem interpreterLine_weaves {drops : List Char → List Char → Prop} :
    Leads (Before drops cs []) interpreterLine fun o => Before drops cs (o.toList.flatMap leaves) := by
  refine .textAhead fun s h => ?_
  split
  next rest hrest =>
    refine .textAhead fun s' he => ?_
    obtain rfl := he
    extract_lets after
    have hafter : after <:+ s'.start := by
      rw [hrest]
      exact (List.dropWhile_suffix _).trans (suffix_of_cons (List.suffix_cons _ _))
    have line : Past drops cs [slice s'.start after] (.ofText true after) :=
      ⟨State.ofText_lexed true after, h.woven.slice hafter⟩
    exact .set line.before (.pure fun s hs => by simpa [leaves_verbatim] using hs)
  next => exact .pure fun _ he => he ▸ h

/-- The statements of a text, up to its end. -/
theorem program_weaves (sense : AwaitSense) (fuel : Nat) :
    Leads (Before Decorates cs []) (program sense fuel) fun ts _ => Woven Decorates cs (ts.flatMap leaves) [] := by
  refine .bind interpreterLine_weaves fun line => ?_
  refine .bind (.collectUntil (I := fun ts => Before Decorates cs (line.toList.flatMap leaves ++ ts.flatMap leaves))
    (J := fun ts _ => Woven Decorates cs (line.toList.flatMap leaves ++ ts.flatMap leaves) [])
    (by simp) (fun ts => ?_) fuel) fun ts => ?_
  · refine .peek fun token => .ite (fun hended => .pure fun s h => ?_) fun _ => .map ?_
    · have hstart := h.1.lexed.start_of_ended (h.2.trans hended)
      exact hstart ▸ h.1.woven
    · refine .of (fun _ h => h.1) (.mono ((readers_weave sense fuel).statement cs _) fun t s h => ?_)
      simpa using h.before
  · exact .pure fun _ h => by simpa using h

theorem wholeExpression_weaves (sense : AwaitSense) (fuel : Nat) :
    Leads (Before Decorates cs []) (wholeExpression sense fuel) fun t _ => Woven Decorates cs t.leaves [] := by
  refine .bind .punct fun _ => .next (expressions_weaves (readers_weave sense fuel)) fun e => .pass fun _ => ?_
  refine .peek fun token => .guardBind fun hended => .pure fun s h => ?_
  have hbefore := h.1.before
  have hstart := hbefore.lexed.start_of_ended (h.2.trans (of_decide_eq_true hended))
  simpa using hstart ▸ hbefore.woven

/-- What a reader of whole texts keeps, it keeps in each sense that is tried. -/
theorem run_weaves {α : Type} {reader : AwaitSense → Nat → Read α} {text : String} {a : α} {leavesOf : α → List String}
    (hreader : ∀ sense fuel, Leads (Before Decorates text.toList []) (reader sense fuel)
      fun a _ => Woven Decorates text.toList (leavesOf a) []) (h : run reader text = some a) :
    Woven Decorates text.toList (leavesOf a) [] := by
  obtain ⟨sense, s, hrun⟩ := run_eq_some h
  have begins : Past Decorates text.toList [] (State.ofText true text.toList) := ⟨State.ofText_lexed true text.toList, .start⟩
  exact hreader sense _ _ _ _ begins.before hrun

theorem readStatements_weaves {text : String} {body : List Tree} (h : readStatements text = .ok body) :
    Woven Decorates text.toList (body.flatMap leaves) [] := by
  rw [readStatements] at h
  split at h
  next hrun =>
    cases h
    exact run_weaves program_weaves hrun
  next => cases h

/-- The leaves of an expression stand in its text, between the parentheses that are put around it. -/
theorem readExpression_weaves {text : String} {t : Tree} (h : readExpression text = .ok t) :
    Woven Decorates (wrapped text).toList t.leaves [] := by
  rw [readExpression] at h
  split at h
  next hrun =>
    cases h
    exact run_weaves wholeExpression_weaves hrun
  next => split at h <;> cases h

end Graft.Source
