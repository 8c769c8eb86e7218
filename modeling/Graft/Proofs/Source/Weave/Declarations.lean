import Graft.Proofs.Source.Weave.Operations
import Graft.Source.Module
/-!
# Declarations are woven from their leaves

Of imports and exports, which are kept as their source text, it is enough that their readers go forward.
-/

namespace Graft.Source

open Read Graft.Tree

variable {α β : Type} {drops : List Char → List Char → Prop} {cs : List Char} {kept : List String} {P : State → Prop}

/-! ## Words -/

instance : Looks asksAhead := inferInstanceAs (Looks (Mode.statement.questionAhead? >>= fun _ => pure _))

instance : Looks letDeclares := inferInstanceAs (Looks (second >>= fun _ => pure _))

instance : Looks declaresName := by
  have answer (next : State) : Looks (match next.token with
      | .word w => pure (!(isReserved w))
      | .punct "*" =>
        match (State.ofText true next.rest).token with
        | .word _ => pure true
        | _ => pure false
      | _ => pure false : Read Bool) := by
    split
    · infer_instance
    · split <;> infer_instance
    · infer_instance
  exact inferInstanceAs (Looks (second >>= fun next => match next.token with
    | .word w => pure (!(isReserved w))
    | .punct "*" =>
      match (State.ofText true next.rest).token with
      | .word _ => pure true
      | _ => pure false
    | _ => pure false))

instance : Looks usingDeclares :=
  inferInstanceAs (Looks (second >>= fun _ => isWord "using" >>= fun _ => isWord "await" >>= fun _ => pure _))

/-- A look ahead that comes back to where it began. -/
theorem lookBack {r : Read α} {next : State} : Looks (do
    let s ← get
    set next
    let a ← r
    set s
    return a) where
  same := by
    intro s a s' h
    change ((r.run next).bind fun p => some (p.1, s)) = some (a, s') at h
    obtain ⟨p, -, hp⟩ := Option.bind_eq_some_iff.1 h
    cases hp
    rfl

theorem asyncDeclares_looks {bare : Bool} :
    Leads P (asyncDeclares bare) fun b s => P s ∧ (b = true → s.token = .word "async") := by
  refine .isWord fun b => .ite (fun hb => ?_) fun _ => .pure (by simp +contextual)
  refine .look fun next => .ite (fun _ => ?_) fun _ => .pure (by simp +contextual)
  exact .mono (@Leads.looked _ _ _ lookBack) fun _ _ h => ⟨h.1, fun _ => h.2 hb⟩

section Declarations
variable {read : Readers} {fuel : Nat} {mode : Mode} (hread : WeaveReaders drops read)
include hread

/-! ## Statements kept as their text -/

omit hread in
theorem verbatim_weaves {body : Read Unit} (hbody : ∀ cs, Leads (Facing cs) body fun _ => Onward cs) :
    Leads (Before drops cs kept) (verbatim body) fun t => Past drops cs (kept ++ t.leaves) := by
  refine .textAhead fun s h => ?_
  have here : Facing s.start s := ⟨h.lexed, List.suffix_refl _⟩
  refine .bind (.of (fun _ he => he ▸ here) (hbody s.start)) fun _ => ?_
  exact .bind (.sourceFrom h) fun text => .pure fun _ h => by rwa [leaves_verbatim]

theorem expressionStatement_weaves :
    Leads (Before drops cs kept) (expressionStatement read fuel) fun t => Past drops cs (kept ++ t.leaves) :=
  .bind (expressions_weaves hread) fun _ => .pass fun _ => .pure fun _ h => h.node (by simp [Node.children, Node.fields]) rfl rfl

/-! ## Variables -/

theorem bindingTarget_weaves :
    Leads (Before drops cs kept) (bindingTarget read fuel) fun t => Past drops cs (kept ++ t.leaves) := by
  refine .peek fun token => .of (fun _ h => h.1) ?_
  split
  next => exact bindingName_weaves
  next => exact .bind (array_weaves hread) fun r => .require fun _ ht _ h => h.offer (.pattern ht)
  next => exact .bind (object_weaves hread) fun r => .require fun _ ht _ h => h.offer (.pattern ht)
  next => exact .failure

theorem declarator_weaves :
    Leads (Before drops cs kept) (declarator read fuel mode) fun t => Past drops cs (kept ++ t.leaves) := by
  refine .bind (bindingTarget_weaves hread) fun id => .look fun _ => ?_
  extract_lets finish started
  have hfinish (init : Option Tree) : Leads (Past drops cs (kept ++ id.leaves ++ init.toList.flatMap leaves)) (finish init)
      fun t => Past drops cs (kept ++ t.leaves) := .pure fun _ h => h.node (by simp [Node.children, Node.fields]) rfl rfl
  have hstarted (assigns : Bool) : Leads (Past drops cs (kept ++ id.leaves)) (started assigns)
      fun t => Past drops cs (kept ++ t.leaves) :=
    .ite (fun _ => .bind (.some (expressionTree_weaves hread)) hfinish) fun _ => .bind .none hfinish
  exact .ite (fun _ => .bind (.pure fun _ h => h) hstarted) fun _ => .bind .passed hstarted

theorem declaratorsAfter_weaves (n : Nat) {ds : List Tree} : Leads (Past drops cs (kept ++ ds.reverse.flatMap leaves))
    (declarators.declaratorsAfter read fuel n ds) fun ts => Past drops cs (kept ++ ts.flatMap leaves) := by
  induction n generalizing ds with
  | zero => exact .failure
  | succ n ih =>
    refine .look fun _ => .ite (fun _ => .pure fun _ h => h) fun _ => .pass fun _ => ?_
    refine .ite (fun _ => ?_) fun _ => .pure fun _ h => h
    refine .next (declarator_weaves hread) fun d => .of (fun s h => ?_) ih
    simpa using h

theorem declarators_weaves :
    Leads (Before drops cs kept) (declarators read fuel) fun ts => Past drops cs (kept ++ ts.flatMap leaves) :=
  .bind (declarator_weaves hread) fun d => .of (fun s h => by simpa using h) (declaratorsAfter_weaves hread fuel)

theorem declaration_weaves {kind : String} (hk : isKeyword kind = true) :
    Leads (fun s => Before drops cs kept s ∧ s.token = .word kind) (declaration read fuel kind)
      fun t => Past drops cs (kept ++ t.leaves) := by
  refine .advance (fun _ h => (h.1.keyword h.2 hk).before) (.bind (declarators_weaves hread) fun ds => .pass fun _ => ?_)
  exact .pure fun _ h => h.node (by simp [Node.children, Node.fields]) rfl rfl

/-! ## Functions and classes -/

theorem classDeclaration_weaves {bare : Bool} :
    Leads (Before drops cs kept) (classDeclaration read fuel bare) fun t => Past drops cs (kept ++ t.leaves) :=
  .bind (classRest_weaves hread) fun c => .pass fun _ => .pure fun _ h =>
    h.node (by simp [Node.children, Node.fields, ClassParts.fields]) rfl rfl

/-- What is given is kept; if nothing is, nothing is taken. -/
def Perhaps (P : State → Prop) (drops : List Char → List Char → Prop) (cs : List Char) (kept : List String) (o : Option Tree)
    (s : State) : Prop :=
  match o with
  | none => P s
  | some t => Past drops cs (kept ++ t.leaves) s

omit hread in
theorem whole_weaves {bare : Bool} {body : Read Tree} (hbody : Leads P body fun t => Past drops cs (kept ++ t.leaves)) :
    Leads P (whole bare body) (Perhaps P drops cs kept) := by
  refine .get fun s h => .of (fun _ he => he ▸ h) (.bind hbody fun t => .look fun _ => .look fun _ => ?_)
  exact .ite (fun _ => .set (S := P) h (.pure fun _ h => h)) fun _ => .pure fun _ h => h

theorem namedDeclaration_weaves {bare : Bool} (hP : ∀ s, P s → Before drops cs kept s) :
    Leads P (namedDeclaration? read fuel bare) (Perhaps P drops cs kept) := by
  have function {isAsync : Bool} : Leads (Before drops cs kept) (do
      return Tree.mk (.functionDeclaration (← functionRest read fuel isAsync true bare)))
      fun t => Past drops cs (kept ++ t.leaves) :=
    .bind (functionRest_weaves hread) fun f => .pure fun _ h => Past.func (n := .functionDeclaration f) h rfl rfl rfl
  refine .bind asyncDeclares_looks fun declares => .ite (fun hasync => ?_) fun _ => .of (fun _ h => h.1) ?_
  · refine .mono (Q := Perhaps (fun s => P s ∧ (declares = true → s.token = .word "async")) drops cs kept) (whole_weaves ?_) ?_
    · exact .advance (fun s h => ((hP s h.1).keyword (h.2 hasync) (by decide)).before) function
    · rintro (_ | t) s h
      · exact h.1
      · exact h
  · refine .look fun _ => .look fun _ => .ite (fun _ => whole_weaves (.of hP function)) fun _ => ?_
    refine .look fun _ => .look fun _ => ?_
    refine .ite (fun _ => whole_weaves (.of hP (classDeclaration_weaves hread))) fun _ => ?_
    exact .pure fun _ h => h

/-! ## Readers that only go forward -/

theorem usingDeclaration_onward : Leads (Facing cs) (usingDeclaration read fuel) fun _ => Onward cs := by
  have declared : Leads (Onward cs) (declarators read fuel) fun _ => Onward cs :=
    .of (fun _ h => h.facing) (.onward drops fun _ => declarators_weaves hread)
  exact .bind .mayFacingWord fun _ => .bind .onwardWord fun _ => .pass fun _ => .bind declared fun _ => .passed

omit hread in
theorem stringToken_onward : Leads (Facing cs) stringToken fun _ => Onward cs := by
  refine .peek fun token => ?_
  split
  next => exact .advanced fun _ h => h.1.next
  next => exact .failure

omit hread in
theorem moduleName_onward : Leads (Facing cs) moduleName fun _ => Onward cs := by
  refine .peek fun token => ?_
  split
  next => exact .advance (fun _ h => h.1.next) .passed
  next => exact .guardBind fun _ => .advance (fun _ h => h.1.next) .passed
  next => exact .bind (Q := fun _ => Onward cs) .failure fun _ => .passed

omit hread in
theorem bindingName_onward : Leads (Facing cs) bindingName fun _ => Onward cs :=
  .onward (fun _ _ => False) fun _ => bindingName_weaves

omit hread in
theorem importedName_onward : Leads (Facing cs) importedName fun _ => Onward cs := .bind bindingName_onward fun _ => .passed

omit hread in
theorem renames_onward : Leads (Onward cs) renames fun _ => Onward cs := by
  refine .bind .mayOnwardWord fun _ => ?_
  extract_lets finish
  exact .ite (fun _ => .pass fun _ => .pure fun _ h => h) fun _ => .pure fun _ h => h

omit hread in
theorem exportSpecifier_onward : Leads (Facing cs) exportSpecifier fun _ => Onward cs := by
  refine .bind moduleName_onward fun _ => .bind renames_onward fun _ => ?_
  exact .ite (fun _ => .of (fun _ h => h.facing) moduleName_onward) fun _ => .pure fun _ h => h

omit hread in
theorem importSpecifier_onward : Leads (Facing cs) importSpecifier fun _ => Onward cs := by
  refine .peek fun token => .of (fun _ h => h.1) ?_
  have named : Leads (Facing cs) (do
      moduleName
      guardThat (← renames)
      importedName) fun _ => Onward cs :=
    .bind moduleName_onward fun _ => .bind renames_onward fun _ =>
      .guardBind fun _ => .of (fun _ h => h.facing) importedName_onward
  split
  next => exact named
  next => exact named
  next =>
    refine .bind importedName_onward fun _ => .bind renames_onward fun _ => ?_
    exact .ite (fun _ => .of (fun _ h => h.facing) importedName_onward) fun _ => .pure fun _ h => h

omit hread in
theorem specifiers_onward {one : Read Unit} (hone : Leads (Facing cs) one fun _ => Onward cs) :
    Leads (Facing cs) (specifiers fuel one) fun _ => Onward cs := by
  have go (n : Nat) : Leads (Facing cs) (specifiers.go one n) fun _ => Onward cs := by
    induction n with
    | zero => exact .failure
    | succ n ih =>
      refine .ifPunctOnward (.pure fun _ h => h) (.bind hone fun _ => .pass fun _ => .ite (fun _ => ?_) fun _ => .passed)
      exact .of (fun _ h => h.facing) ih
  exact .ifPunctOnward .passed (go fuel)

omit hread in
theorem fromClause_onward : Leads (Facing cs) fromClause fun _ => Onward cs :=
  .bind .onwardWord fun _ => .pass fun _ => .of (fun _ h => h.facing) stringToken_onward

theorem attributes_onward : Leads (Onward cs) (attributes read fuel) fun _ => Onward cs := by
  refine .bind .mayOnwardWord fun _ => .ite (fun _ => ?_) fun _ => .pure fun _ h => h
  intro s _ s' h he
  have onward : Leads (Before drops cs [slice cs s.start]) (do
      let r ← object read fuel .element .inner
      guardThat r.expression.isSome) fun _ => Onward cs := by
    refine .bind (object_weaves hread) fun r => .guarded fun hr s h => ?_
    obtain ⟨e, he⟩ := Option.isSome_iff_exists.1 hr
    exact (h.offer (.expression he)).onward
  exact onward s _ s' h.facing.before he

omit hread in
theorem namespaceImport_onward : Leads (Facing cs) namespaceImport fun _ => Onward cs :=
  .bind .onwardPunct fun _ => .bind renames_onward fun _ => .guardBind fun _ => .of (fun _ h => h.facing) importedName_onward

omit hread in
theorem namedImports_onward : Leads (Facing cs) (namedImports fuel) fun _ => Onward cs := by
  refine .bind .onwardPunct fun _ => .of (fun _ h => h.facing) (.bind (specifiers_onward importSpecifier_onward) fun _ => ?_)
  exact .passed

theorem importDeclaration_onward : Leads (Facing cs) (importDeclaration read fuel) fun _ => Onward cs := by
  refine .bind .onwardWord fun _ => .peek fun token => ?_
  extract_lets close attributed sourced
  have hattributed (u : Unit) : Leads (Onward cs) (attributed u) fun _ => Onward cs :=
    .look fun _ => .ite (fun _ => .bind (attributes_onward hread) fun _ => .passed) fun _ => .passed
  have hsourced (u : Unit) : Leads (Onward cs) (sourced u) fun _ => Onward cs :=
    .of (fun _ h => h.facing) (.bind fromClause_onward hattributed)
  split
  next => exact .advance (fun _ h => h.1.facing.next) (hattributed ())
  next => exact .of (fun _ h => h.1.facing) (.bind namespaceImport_onward hsourced)
  next => exact .of (fun _ h => h.1.facing) (.bind namedImports_onward hsourced)
  next =>
    refine .of (fun _ h => h.1.facing) (.bind importedName_onward fun _ => .pass fun _ => ?_)
    refine .ite (fun _ => .look fun _ => .of (fun _ h => h.facing) (.ite (fun _ => ?_) fun _ => ?_)) fun _ => hsourced ()
    · exact .bind namedImports_onward hsourced
    · exact .bind namespaceImport_onward hsourced

theorem namedDeclaration_onward {bare : Bool} : Leads (Facing cs) (namedDeclaration? read fuel bare) fun o s =>
    if o.isSome then Onward cs s else Facing cs s := by
  intro s o s' h he
  have hnamed := namedDeclaration_weaves (P := Before drops cs [slice cs s.start]) hread (fun _ h => h) s o s' h.before he
  cases o with
  | none => exact Before.facing hnamed
  | some t => exact Past.onward hnamed

theorem declaration_onward {kind : String} (hk : isKeyword kind = true) :
    Leads (fun s => Facing cs s ∧ s.token = .word kind) (declaration read fuel kind) fun _ => Onward cs :=
  fun s _ s' h he => (declaration_weaves hread hk s _ s' ⟨h.1.before, h.2⟩ he).onward

theorem exportable_onward {bare : Bool} : Leads (Facing cs) (exportable read fuel bare) fun _ => Onward cs := by
  refine .bind (namedDeclaration_onward hread) fun o => ?_
  cases o with
  | some t => exact .pure fun _ h => h
  | none =>
    refine .of (P := Facing cs) (fun _ h => h) (.peek fun token => ?_)
    split
    next w =>
      refine .ite (fun hw => ?_) fun _ => ?_
      · have hkeyword : isKeyword w = true := by
          simp only [Bool.or_eq_true, decide_eq_true_eq] at hw
          rcases hw with (rfl | rfl) | rfl <;> decide
        exact .look fun _ => .guardBind fun _ => .bind (declaration_onward hread hkeyword) fun _ => .pure fun _ h => h
      · exact .look fun _ => .guardBind fun _ => .of (fun _ h => h.1) (usingDeclaration_onward hread)
    next =>
      have decorated : Leads (Facing cs) (decorators read fuel) fun _ => Facing cs :=
        fun s _ s' h he => (decorators_weaves hread s _ s' h.before he).facing
      have class_ : Leads (Facing cs) (classDeclaration read fuel bare) fun _ => Onward cs :=
        .onward drops fun _ => classDeclaration_weaves hread
      exact .of (fun _ h => h.1) (.bind decorated fun _ => .bind class_ fun _ => .pure fun _ h => h)
    next => exact .failure

theorem exported_onward : Leads (Facing cs) (exported read fuel) fun _ => Onward cs := by
  refine .bind .mayFacingWord fun _ => .ite (fun _ => .orElse (exportable_onward hread) ?_) fun _ => exportable_onward hread
  refine .look fun _ => .guardBind fun _ => .bind (.onward drops fun _ => expressionTree_weaves hread) fun _ => .passed

theorem exportDeclaration_onward : Leads (Facing cs) (exportDeclaration read fuel) fun _ => Onward cs := by
  refine .bind .onwardWord fun _ => .pass fun _ => .ite (fun _ => .bind renames_onward fun _ => ?_) fun _ => ?_
  · have hfrom : Leads (Onward cs) (fromClause >>= fun _ => semicolon true) fun _ => Onward cs :=
      .of (fun _ h => h.facing) (.bind fromClause_onward fun _ => .passed)
    exact .ite (fun _ => .of (fun _ h => h.facing) (.bind moduleName_onward fun _ => hfrom)) fun _ => hfrom
  refine .pass fun _ => .ite (fun _ => ?_) fun _ => ?_
  · refine .of (fun _ h => h.facing)
      (.bind (specifiers_onward exportSpecifier_onward) fun _ => .look fun _ => .look fun _ => ?_)
    exact .ite (fun _ => .of (fun _ h => h.facing) (.bind fromClause_onward fun _ => .passed)) fun _ => .passed
  · exact .of (fun _ h => h.facing) (exported_onward hread)

end Declarations

end Graft.Source
