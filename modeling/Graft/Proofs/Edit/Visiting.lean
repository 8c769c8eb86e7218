import Graft.Proofs.Edit.Lost
/-!
# The moves of a script

`stepMoves` gives the moves that a step makes: its search, then for each match the visit and the moves of its actions, and the end of
the search. A script that succeeds comes to what its moves come to, and each of its searches visits all that it found
(`Editing.script_visits_inTree_iff`).
-/

namespace Graft
namespace Editing

/-- The moves at each of these nodes in order, given those at one. -/
def eachMoves {α : Type} (moves : Editor → List Move) (run : Editor.Run α) : List NodeId → Editor → List Move
  | [], _ => []
  | id :: rest, e => .visit :: (moves (e.moveTo id) ++ eachMoves moves run rest (run (e.moveTo id)).2)

/-- The moves of a search and of the visits of what it finds. -/
def searchMoves {α : Type} (m : Move) (moves : Editor → List Move) (run : Editor.Run α)
    (result : List NodeId × Editor) : List Move :=
  m :: (eachMoves moves run result.1 result.2 ++ [.leave])

mutual
def stepMoves : Step → Editor → List Move
  | .mk (some spec) _ _ actions, e =>
    searchMoves (.find spec) (actionsMoves actions) (Editor.runActions actions) (e.findAll spec)
  | .mk none (some pattern) _ actions, e =>
    searchMoves (.findPattern pattern) (actionsMoves actions) (Editor.runActions actions) (e.findPattern pattern)
  | .mk none none _ _, _ => []

def actionsMoves : List Action → Editor → List Move
  | [], _ => []
  | action :: rest, e => actionMoves action e ++ actionsMoves rest (Editor.runAction action e).2

def actionMoves : Action → Editor → List Move
  | .insert position code, _ => [.insert position code]
  | .wrap code, _ => [.wrap code]
  | .change method value code, _ => ((Editor.changeValue? value code).map (Move.change method)).toList
  | .gotoChild field (some index), _ => [.gotoElement field index]
  | .gotoChild field none, _ => [.gotoChild field]
  | .gotoParent, _ => [.gotoParent]
  | .find step, e => stepMoves step e
end

def scriptMoves : List Step → Editor → List Move
  | [], _ => []
  | step :: rest, e => stepMoves step e ++ scriptMoves rest (Editor.runStep step e).2

/-! ## Moves that come to what a run comes to -/

/-- An orderly way from one state to another. -/
structure Leads (σ : Editing) (moves : List Move) (σ' : Editing) : Prop where
  run : σ.run moves = σ'
  orderly : Orderly σ moves

namespace Leads

variable {σ σ' σ'' : Editing} {moves more : List Move}

theorem nil : Leads σ [] σ := ⟨rfl, trivial⟩

theorem append (h : Leads σ moves σ') (h' : Leads σ' more σ'') : Leads σ (moves ++ more) σ'' where
  run := by rw [run_append, h.run, h'.run]
  orderly := orderly_append.2 ⟨h.orderly, h.run.symm ▸ h'.orderly⟩

theorem move {m : Move} (hm : m ≠ .leave) (h : σ.step m = σ') : Leads σ [m] σ' := ⟨h, fun he => absurd he hm, trivial⟩

end Leads

/-- A computation that succeeds makes these moves. -/
def Makes {α : Type} (x : Editor.Run α) (moves : Editor → List Move) : Prop :=
  ∀ e visits a, (x e).1 = .ok a → Leads ⟨e, visits⟩ (moves e) ⟨(x e).2, visits⟩

namespace Makes
variable {α β : Type} {x : Editor.Run α} {moves : Editor → List Move}

theorem congr {y : Editor.Run α} {moves' : Editor → List Move} (hx : Makes x moves) (hy : y = x) (hm : ∀ e, moves' e = moves e) :
    Makes y moves' := by
  intro e visits a ha
  rw [hm, hy]
  exact hx e visits a (hy ▸ ha)

/-- What fails at once makes no move. -/
theorem fail (operation : Operation) (o : Obstacle) : Makes (Editor.Run.fail operation o : Editor.Run α) fun _ => [] :=
  fun _ _ _ ha => nomatch ha

theorem pure (a : α) : Makes (Pure.pure a : Editor.Run α) fun _ => [] := fun _ _ _ _ => .nil

theorem bind {f : α → Editor.Run β} {more : Editor → List Move} (hx : Makes x moves) (hf : ∀ a, Makes (f a) more) :
    Makes (x >>= f) fun e => moves e ++ more (x e).2 := by
  intro e visits b hb
  rw [Editor.Run.bind_apply] at hb ⊢
  cases ha : (x e).1 with
  | error cause => simp [ha] at hb
  | ok a =>
    simp only [ha] at hb ⊢
    exact (hx e visits a ha).append (hf a (x e).2 visits b hb)

theorem discard (hx : Makes x moves) : Makes (Functor.discard x) moves := by
  intro e visits a ha
  rw [Editor.Run.discard_eq] at ha ⊢
  simpa using hx.bind (fun _ => .pure ()) e visits a ha

theorem perform (op : Edit) : Makes (Editor.perform op) fun _ => [op.move] := by
  intro e visits a ha
  have hleave : op.move ≠ .leave := by cases op <;> nofun
  refine .move hleave ?_
  have hstep : step ⟨e, visits⟩ op.move = operate ⟨e, visits⟩ op.result := by cases op <;> rfl
  rw [hstep, operate]
  have hsettled := Editor.perform_settled e op
  generalize hresult : op.result e = result, Editor.perform op e = out at hsettled ha
  cases hsettled with
  | ok e' => simp
  | error cause trees _ => cases ha

/-- The visits of all matches; the cursor comes back only when the search ends. -/
theorem each (hx : Makes x moves) (home : NodeId) (found : List NodeId) (e : Editor) (visits : List Visit) (l : List α)
    (hl : (Editor.Run.each x found (e.moveTo home)).1 = .ok l) : ∃ e',
      Leads ⟨e, ⟨home, found⟩ :: visits⟩ (eachMoves moves x found e) ⟨e', ⟨home, []⟩ :: visits⟩ ∧
        e'.moveTo home = (Editor.Run.each x found (e.moveTo home)).2 := by
  induction found generalizing e l with
  | nil => exact ⟨e, .nil, rfl⟩
  | cons id rest ih =>
    have hthere : Editor.Run.there id x (e.moveTo home) = ((x (e.moveTo id)).1, (x (e.moveTo id)).2.moveTo home) := rfl
    rw [Editor.Run.each, Editor.Run.bind_apply, hthere] at hl ⊢
    cases ha : (x (e.moveTo id)).1 with
    | error cause => simp [ha] at hl
    | ok a =>
      simp only [ha] at hl ⊢
      rw [Editor.Run.bind_apply] at hl ⊢
      cases hr : (Editor.Run.each x rest ((x (e.moveTo id)).2.moveTo home)).1 with
      | error cause => simp [hr] at hl
      | ok rest' =>
        obtain ⟨e', hleads, he'⟩ := ih (x (e.moveTo id)).2 rest' hr
        have hvisit : Leads ⟨e, ⟨home, id :: rest⟩ :: visits⟩ [.visit] ⟨e.moveTo id, ⟨home, rest⟩ :: visits⟩ := .move (by simp) rfl
        exact ⟨e', hvisit.append ((hx _ _ a ha).append hleads), he'⟩

theorem search (hx : Makes x moves) {m : Move} (hleave : m ≠ .leave) {f : Editor → List NodeId × Editor}
    (hm : ∀ σ, step σ m = Editing.search σ f) (hf : ∀ e, (f e).2.current = e.current)
    (check : List NodeId → Except EditError Unit) :
    Makes (do
      let found ← Editor.Run.ofSearch f
      ExceptT.mk (Pure.pure (check found))
      Editor.Run.each x found) fun e => searchMoves m moves x (f e) := by
  intro e visits l hl
  have hhome : (f e).2.moveTo e.current = (f e).2 := by
    rw [Editor.moveTo, ← hf e]
  have hbegin : Leads ⟨e, visits⟩ [m] ⟨(f e).2, ⟨e.current, (f e).1⟩ :: visits⟩ := .move hleave (hm ⟨e, visits⟩)
  have hfound : Editor.Run.ofSearch f e = (.ok (f e).1, (f e).2) := rfl
  have hcheck : (ExceptT.mk (Pure.pure (check (f e).1)) : Editor.Run Unit) (f e).2 = (check (f e).1, (f e).2) := rfl
  simp only [Editor.Run.bind_apply, hfound, hcheck] at hl ⊢
  cases hc : check (f e).1 with
  | error cause => simp [hc] at hl
  | ok _ =>
    simp only [hc] at hl ⊢
    rw [← hhome] at hl
    obtain ⟨e', hleads, he'⟩ := each hx e.current (f e).1 (f e).2 visits l hl
    rw [hhome] at he'
    have hend : Leads ⟨e', ⟨e.current, []⟩ :: visits⟩ [.leave] ⟨e'.moveTo e.current, visits⟩ := ⟨rfl, fun _ => rfl, trivial⟩
    rw [← he']
    exact hbegin.append (hleads.append hend)

end Makes

mutual
theorem runStep_makes : (s : Step) → Makes (Editor.runStep s) (stepMoves s)
  | .mk (some spec) _ expected actions => by
    have hmakes := (runActions_makes actions).search (m := .find spec) (f := fun e => e.findAll spec) nofun (fun _ => rfl)
      (fun _ => rfl) fun found => checkCount spec.describe expected found.length
    exact hmakes.discard.congr (by rw [Editor.runStep, Editor.findEach]) fun e => by rw [stepMoves]
  | .mk none (some pattern) expected actions => by
    have hmakes := (runActions_makes actions).search (m := .findPattern pattern) (f := fun e => e.findPattern pattern) nofun
      (fun _ => rfl) (fun _ => rfl) fun found => checkCount ("raw pattern " ++ pattern.compact) expected found.length
    exact hmakes.discard.congr (by rw [Editor.runStep, Editor.findPatternEach]) fun e => by rw [stepMoves]
  | .mk none none _ _ => (Makes.fail .runStep .noCriterion).congr (by rw [Editor.runStep]) fun e => by rw [stepMoves]

theorem runActions_makes : (actions : List Action) → Makes (Editor.runActions actions) (actionsMoves actions)
  | [] => (Makes.pure ()).congr (by rw [Editor.runActions]) fun e => by rw [actionsMoves]
  | action :: rest => by
    have hmakes := (runAction_makes action).bind fun _ => runActions_makes rest
    exact hmakes.congr (by rw [Editor.runActions]) fun e => by rw [actionsMoves]

theorem runAction_makes : (action : Action) → Makes (Editor.runAction action) (actionMoves action)
  | .insert position code =>
    (Makes.perform (.insert position code)).congr (by rw [Editor.runAction]) fun e => by rw [actionMoves, Edit.move]
  | .wrap code => (Makes.perform (.wrap code)).congr (by rw [Editor.runAction]) fun e => by rw [actionMoves, Edit.move]
  | .change method value code => by
    cases hv : Editor.changeValue? value code with
    | some v =>
      refine (Makes.perform (.change method v)).congr (by rw [Editor.runAction, hv]) fun e => ?_
      rw [actionMoves, hv]
      rfl
    | none =>
      refine (Makes.fail .change .noValue).congr (by rw [Editor.runAction, hv]) fun e => ?_
      rw [actionMoves, hv]
      rfl
  | .gotoChild field (some index) =>
    (Makes.perform (.gotoElement field index)).congr (by rw [Editor.runAction]) fun e => by rw [actionMoves, Edit.move]
  | .gotoChild field none =>
    (Makes.perform (.gotoChild field)).congr (by rw [Editor.runAction]) fun e => by rw [actionMoves, Edit.move]
  | .gotoParent => (Makes.perform .gotoParent).congr (by rw [Editor.runAction]) fun e => by rw [actionMoves, Edit.move]
  | .find step => (runStep_makes step).congr (by rw [Editor.runAction]) fun e => by rw [actionMoves]
end

theorem runSteps_makes (steps : List Step) : Makes (Editor.runSteps steps) (scriptMoves steps) := by
  induction steps with
  | nil => exact .pure ()
  | cons step rest ih => exact (runStep_makes step).bind fun _ => ih

/-! ## Scripts that succeed -/

variable {steps : List Step} {t : Tree}

/-- A script that succeeds makes its moves, from no search under way to none. -/
theorem script_leads (hok : (Editor.runSteps steps (.ofTree t)).1 = .ok ()) :
    Leads (start t) (scriptMoves steps (.ofTree t)) ⟨(Editor.runSteps steps (.ofTree t)).2, []⟩ :=
  runSteps_makes steps (.ofTree t) [] () hok

/-- A script that succeeds visits all matches in the tree exactly if none of its moves loses a match. -/
theorem script_visits_inTree_iff (hok : (Editor.runSteps steps (.ofTree t)).1 = .ok ()) :
    (start t).run (scriptMoves steps (.ofTree t)) = ⟨(Editor.runSteps steps (.ofTree t)).2, []⟩ ∧
      (VisitsInTree (start t) (scriptMoves steps (.ofTree t)) ↔
        ∀ before m, before ++ [m] <+: scriptMoves steps (.ofTree t) → ¬ Loses ((start t).run before) m) := by
  have hleads := script_leads hok
  refine ⟨hleads.run, visits_inTree_iff (start_known t) ?_ ⟨hleads.orderly, ?_⟩⟩
  · rintro x ⟨v, hv, -⟩
    cases hv
  · rw [hleads.run]

theorem not_inTree_of_closed {e : Editor} {reached : List NodeId} (hroot : e.store.root ∈ reached)
    (hclosed : ∀ p ∈ reached, ∀ c ∈ e.store.children p, c ∈ reached) {x : NodeId} (hx : x ∉ reached) : ¬ e.InTree x := by
  intro hin
  apply hx
  clear hx
  induction hin with
  | refl => exact hroot
  | tail _ hc ih => exact hclosed _ ih _ hc

/-- Two objects, the second in the first, and a new value for each. -/
def nestedObjects : List Step :=
  [.mk (some (.object none none none none)) none (some 2) [.change .set none (some "\x7b c: 2 \x7d")]]

/-- It visits what it finds in one program or another. -/
theorem nestedObjects_visits_inTree_iff : ∃ t, Source.readProgram "x = \x7b a: \x7b b: 1 \x7d \x7d;" = .ok t ∧
    (Editor.runSteps nestedObjects (.ofTree t)).1 = .ok () ∧
      ((start t).run (scriptMoves nestedObjects (.ofTree t)) = ⟨(Editor.runSteps nestedObjects (.ofTree t)).2, []⟩ ∧
        (VisitsInTree (start t) (scriptMoves nestedObjects (.ofTree t)) ↔
          ∀ before m, before ++ [m] <+: scriptMoves nestedObjects (.ofTree t) → ¬ Loses ((start t).run before) m)) := by
  have facts : ((Source.readProgram "x = \x7b a: \x7b b: 1 \x7d \x7d;").toOption.any fun t =>
      (Editor.runSteps nestedObjects (.ofTree t)).1.toOption.isSome) = true := by decide +kernel
  cases hr : Source.readProgram "x = \x7b a: \x7b b: 1 \x7d \x7d;" with
  | error => simp [hr, Except.toOption] at facts
  | ok t =>
    have hok : (Editor.runSteps nestedObjects (.ofTree t)).1 = .ok () := by
      cases ho : (Editor.runSteps nestedObjects (.ofTree t)).1 with
      | error => simp [hr, ho, Except.toOption] at facts
      | ok => rfl
    exact ⟨t, rfl, hok, script_visits_inTree_iff hok⟩

/-- The first of two nested objects takes the place of the second, which is still visited. -/
theorem nestedObjects_not_visitsInTree : ∃ t, Source.readProgram "x = \x7b a: \x7b b: 1 \x7d \x7d;" = .ok t ∧
    (Editor.runSteps nestedObjects (.ofTree t)).1 = .ok () ∧
      ¬ VisitsInTree (start t) (scriptMoves nestedObjects (.ofTree t)) := by
  have facts : ((Source.readProgram "x = \x7b a: \x7b b: 1 \x7d \x7d;").toOption.any fun t =>
      let σ := (start t).run [.find (.object none none none none), .visit, .change .set (.code "\x7b c: 2 \x7d")]
      let reached : List NodeId := [⟨0⟩, ⟨7⟩, ⟨8⟩, ⟨9⟩, ⟨10⟩, ⟨11⟩, ⟨12⟩, ⟨13⟩]
      (Editor.runSteps nestedObjects (.ofTree t)).1.toOption.isSome = true ∧
      ((Editor.ofTree t).findAll (.object none none none none)).1 = [⟨7⟩, ⟨5⟩] ∧
      σ.next? = some ⟨5⟩ ∧ σ.editor.store.root ∈ reached ∧ ∀ p ∈ reached, ∀ c ∈ σ.editor.store.children p, c ∈ reached)
      = true := by decide +kernel
  cases hr : Source.readProgram "x = \x7b a: \x7b b: 1 \x7d \x7d;" with
  | error => simp [hr, Except.toOption] at facts
  | ok t =>
    rw [hr] at facts
    obtain ⟨hrun, hfound, hnext, hroot, hclosed⟩ := of_decide_eq_true facts
    refine ⟨t, rfl, ?_, fun hall => ?_⟩
    · cases ho : (Editor.runSteps nestedObjects (.ofTree t)).1 with
      | error =>
        rw [ho] at hrun
        cases hrun
      | ok => rfl
    · refine not_inTree_of_closed hroot hclosed (by decide) (hall _ ⟨5⟩ ?_ hnext)
      simp [nestedObjects, scriptMoves, stepMoves, searchMoves, hfound, eachMoves, actionsMoves, actionMoves, Editor.changeValue?]

end Editing
end Graft
