import Graft.Edit.Script
import Graft.Proofs.Edit.Atomic
/-!
# Errors of operations

An operation at the cursor fails on the code that it is given, or on the node that it meets, and then its error names the
operation (`Edit.result_names`). So a script whose steps search for something and whose changes have a value never
fails with `runStep` or `change`, which name no operation at the cursor (`Editor.Sensible`).
-/

namespace Graft

/-- The name that an operation has in errors. -/
def Edit.operation : Edit → Operation
  | .gotoChild _ | .gotoElement .. => .gotoChild
  | .gotoParent => .gotoParent
  | .insert .. => .insert
  | .wrap _ => .wrap
  | .change .update _ => .update
  | .change .set _ => .set

/-- An error in code, or one that names the operation. -/
def EditError.Names (operation : Operation) : EditError → Prop
  | .matchCount .. => False
  | .precondition named _ _ => named = operation
  | .fragment _ => True

/-- An error that no text avoids: the script itself makes no sense. -/
def EditError.Senseless : EditError → Prop
  | .precondition .runStep _ _ | .precondition .change _ _ => True
  | _ => False

theorem EditError.Names.not_senseless {op : Edit} {cause : EditError} (h : cause.Names op.operation) : ¬ cause.Senseless := by
  cases cause with
  | matchCount => nofun
  | fragment => nofun
  | precondition named type o =>
    change named = op.operation at h
    rw [h]
    rcases op with _ | _ | _ | _ | _ | ⟨_ | _, _⟩ <;> exact id

namespace Editor

variable {e : Editor} {operation : Operation} {α β : Type}

/-- A result whose errors name an operation. -/
def Names (operation : Operation) (r : Except EditError α) : Prop := ∀ cause, r = .error cause → cause.Names operation

namespace Names
variable {r : Except EditError α}

theorem ok (a : α) : Names operation (.ok a : Except EditError α) := nofun

theorem obstacle (e : Editor) (operation : Operation) (o : Obstacle) :
    Names operation (e.obstacle operation o : Except EditError α) := by
  intro cause h
  cases h
  rfl

theorem fragment (cause : Source.SyntaxError) : Names operation (.error (.fragment cause) : Except EditError α) := by
  intro cause h
  cases h
  trivial

theorem bind {f : α → Except EditError β} (h : Names operation r) (hf : ∀ a, Names operation (f a)) :
    Names operation (r >>= f) := by
  cases r with
  | error cause =>
    intro cause' h'
    cases h'
    exact h cause rfl
  | ok a => exact hf a

theorem map {f : α → β} (h : Names operation r) : Names operation (r.map f) := by
  cases r with
  | error cause =>
    intro cause' h'
    cases h'
    exact h cause rfl
  | ok a => exact .ok (f a)

end Names

/-! ## Each operation -/

theorem insertExpression_names (code : String) : Names operation (e.insertExpression code) := by
  unfold insertExpression
  split
  next cause _ => exact .fragment cause
  next t _ => exact .ok _

theorem insertStatements_names (code : String) : Names operation (e.insertStatements code) := by
  unfold insertStatements
  split
  next cause _ => exact .fragment cause
  next => exact .ok _
  next => exact .ok _

theorem gotoChild_names (field : String) : Names .gotoChild (e.gotoChild field) := by
  unfold gotoChild
  split
  case h_1 => exact .ok _
  all_goals exact .obstacle e _ _

theorem gotoElement_names (field : String) (index : Nat) : Names .gotoChild (e.gotoElement field index) := by
  unfold gotoElement
  dsimp only
  split
  next ids _ =>
    cases ids[index]? with
    | some child => exact .ok _
    | none => exact .obstacle e _ _
  next slots _ =>
    cases slots[index]?.bind id with
    | some child => exact .ok _
    | none => exact .obstacle e _ _
  next => exact .obstacle e _ _
  next => exact .obstacle e _ _

theorem gotoParent_names : Names .gotoParent e.gotoParent := by
  unfold gotoParent
  split
  · exact .ok _
  · exact .obstacle e _ _

theorem ownList_names : Names .insert e.ownList := by
  unfold ownList
  split
  · exact .ok _
  · exact .ok _
  · split
    · split
      · exact .ok _
      · exact .obstacle e _ _
    · exact .obstacle e _ _

theorem placeInParent_names : Names .insert e.placeInParent := by
  unfold placeInParent
  split
  · exact .obstacle e _ _
  · split
    · exact .obstacle e _ _
    · split
      · exact .ok _
      · exact .obstacle e _ _

theorem insert_names (position : InsertPosition) (code : String) : Names .insert (e.insert position code) := by
  have hpoint : Names .insert (e.insertionPoint position) := by
    cases position with
    | start => exact ownList_names.map
    | «end» => exact ownList_names.map
    | before => exact placeInParent_names
    | after => exact placeInParent_names.map
  refine hpoint.bind fun point => ?_
  exact (insertStatements_names code).bind fun read => .ok _

theorem wrap_names (code : String) : Names .wrap (e.wrap code) := by
  unfold wrap
  split
  · exact .obstacle e _ _
  · refine (insertExpression_names code).bind fun read => ?_
    obtain ⟨id, s⟩ := read
    dsimp only
    split
    · split
      · exact .obstacle e _ _
      · split
        · exact .ok _
        · exact .obstacle e _ _
    · exact .obstacle e _ _

theorem update_names (value : ChangeValue) : Names .update (e.update value) := by
  unfold update
  split
  · exact .obstacle e _ _
  · refine (insertExpression_names value.source).bind fun read => ?_
    obtain ⟨source, s⟩ := read
    dsimp only
    split
    · exact .ok _
    · exact .obstacle e _ _

theorem set_names (value : ChangeValue) : Names .set (e.set value) := by
  have read {f : NodeId × Store → Result} (hf : ∀ r, Names .set (f r)) :
      Names .set (e.insertExpression value.source >>= f) := (insertExpression_names value.source).bind hf
  unfold Editor.set
  split
  · exact read fun _ => .ok _
  · exact read fun _ => .ok _
  · refine read fun r => ?_
    obtain ⟨new, s⟩ := r
    dsimp only
    split
    · exact .ok _
    · exact .obstacle e _ _
  · exact read fun _ => .ok _
  · exact .obstacle e _ _

end Editor

theorem Edit.result_names (op : Edit) (e : Editor) : Editor.Names op.operation (op.result e) := by
  cases op with
  | gotoChild field => exact Editor.gotoChild_names field
  | gotoElement field index => exact Editor.gotoElement_names field index
  | gotoParent => exact Editor.gotoParent_names
  | insert position code => exact Editor.insert_names position code
  | wrap code => exact Editor.wrap_names code
  | change method value =>
    cases method with
    | update => exact Editor.update_names value
    | set => exact Editor.set_names value

/-! ## Runs -/

namespace Editor
variable {α β : Type}

/-- A computation that fails with no error of the script itself. -/
def Sensible (x : Run α) : Prop := ∀ e cause e', x e = (.error cause, e') → ¬ cause.Senseless

namespace Sensible
variable {x : Run α}

theorem pure (a : α) : Sensible (Pure.pure a : Run α) := by
  intro e cause e' h
  cases h

theorem bind {f : α → Run β} (hx : Sensible x) (hf : ∀ a, Sensible (f a)) : Sensible (x >>= f) := by
  intro e cause e' h
  rw [Run.bind_apply] at h
  rcases hr : x e with ⟨cause' | a, e₁⟩
  · rw [hr] at h
    cases h
    exact hx e _ _ hr
  · rw [hr] at h
    exact hf a _ _ _ h

theorem discard (hx : Sensible x) : Sensible (Functor.discard x) := by
  rw [Run.discard_eq]
  exact hx.bind fun _ => .pure ()

theorem perform (op : Edit) : Sensible (Editor.perform op) := by
  intro e cause e' h
  exact (op.result_names e cause (perform_error h).1).not_senseless

theorem check (what : String) (expected : Option Nat) (found : Nat) :
    Sensible (ExceptT.mk (Pure.pure (checkCount what expected found)) : Run Unit) := by
  intro e cause e' h
  obtain ⟨hcheck, -⟩ := Prod.mk.inj h
  unfold checkCount at hcheck
  cases expected with
  | none => cases hcheck
  | some n =>
    by_cases hn : n = found
    · simp [hn] at hcheck
    · simp only [hn, if_false] at hcheck
      cases hcheck
      exact id

theorem ofSearch (f : Editor → List NodeId × Editor) : Sensible (Run.ofSearch f) := by
  intro e cause e' h
  cases h

theorem there (id : NodeId) (hx : Sensible x) : Sensible (Run.there id x) := by
  intro e cause e' h
  obtain ⟨hfails, -⟩ := Prod.mk.inj h
  exact hx (e.moveTo id) cause _ (Prod.ext hfails rfl)

theorem each (hx : Sensible x) (ids : List NodeId) : Sensible (Run.each x ids) := by
  induction ids with
  | nil => exact .pure []
  | cons id rest ih =>
    rw [Run.each]
    refine (there id hx).bind fun a => ?_
    exact ih.bind fun as => .pure (a :: as)

theorem findEach (spec : MatchSpec) (expected : Option Nat) (hx : Sensible x) : Sensible (findEach spec expected x) := by
  refine (ofSearch _).bind fun found => ?_
  exact (check _ _ _).bind fun _ => each hx found

theorem findPatternEach (pattern : Json) (expected : Option Nat) (hx : Sensible x) :
    Sensible (findPatternEach pattern expected x) := by
  refine (ofSearch _).bind fun found => ?_
  exact (check _ _ _).bind fun _ => each hx found

end Sensible
end Editor
end Graft
