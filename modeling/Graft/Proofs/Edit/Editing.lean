import Graft.Proofs.Edit.InPlace
import Graft.Proofs.Edit.Wrap
import Graft.Proofs.Query.Walk
import Graft.Edit.Script
/-!
# Runs of editor operations

`Editing` is an editor together with the searches whose matches are being visited, and a `Move` is one operation at the
cursor, one step of a search, or the end of one. Every list of moves is a run: an operation that fails changes
nothing. What a script does is such a run (`Editing.runSteps_plays`).
-/

namespace Graft

/-- A search: where the cursor was, and the matches still to be visited. -/
structure Visit where
  home : NodeId
  pending : List NodeId

/-- An editor in the midst of searches, the innermost first. -/
structure Editing where
  editor : Editor
  visits : List Visit

inductive Move where
  | gotoChild (field : String)
  | gotoElement (field : String) (index : Nat)
  | gotoParent
  | insert (position : InsertPosition) (code : String)
  | wrap (code : String)
  | change (method : ChangeMethod) (value : ChangeValue)
  | find (spec : MatchSpec)
  | findPattern (pattern : Json)
  /-- Goes on to the next match. -/
  | visit
  /-- Ends a search, whether or not all matches were visited. -/
  | leave
  /-- Leaves trees in fresh slots, as an edit does that fails once its code is read. -/
  | scrap (trees : List Tree)

/-- What is left behind is code that was read. -/
def Move.IsReal : Move → Prop
  | .scrap trees => ∀ t ∈ trees, t.IsCode
  | _ => True

/-- The move that an operation is. -/
def Edit.move : Edit → Move
  | .gotoChild field => .gotoChild field
  | .gotoElement field index => .gotoElement field index
  | .gotoParent => .gotoParent
  | .insert position code => .insert position code
  | .wrap code => .wrap code
  | .change method value => .change method value

namespace Editing

def start (t : Tree) : Editing := ⟨.ofTree t, []⟩

/-- An operation at the cursor. -/
def operate (σ : Editing) (f : Editor → Editor.Result) : Editing :=
  match f σ.editor with
  | .ok e => { σ with editor := e }
  | .error _ => σ

/-- Begins to visit what a search finds. -/
def search (σ : Editing) (f : Editor → List NodeId × Editor) : Editing :=
  let (found, e) := f σ.editor
  ⟨e, ⟨σ.editor.current, found⟩ :: σ.visits⟩

def step (σ : Editing) : Move → Editing
  | .gotoChild field => σ.operate fun e => e.gotoChild field
  | .gotoElement field index => σ.operate fun e => e.gotoElement field index
  | .gotoParent => σ.operate Editor.gotoParent
  | .insert position code => σ.operate fun e => e.insert position code
  | .wrap code => σ.operate fun e => e.wrap code
  | .change method value => σ.operate fun e => e.change method value
  | .find spec => σ.search fun e => e.findAll spec
  | .findPattern pattern => σ.search fun e => e.findPattern pattern
  | .visit =>
    match σ.visits with
    | ⟨home, id :: pending⟩ :: visits => ⟨σ.editor.moveTo id, ⟨home, pending⟩ :: visits⟩
    | _ => σ
  | .leave =>
    match σ.visits with
    | v :: visits => ⟨σ.editor.moveTo v.home, visits⟩
    | [] => σ
  | .scrap trees => { σ with editor := { σ.editor with store := (σ.editor.store.insertAll trees).2 } }

def run (σ : Editing) (moves : List Move) : Editing := moves.foldl step σ

theorem run_nil (σ : Editing) : σ.run [] = σ := rfl

theorem run_cons (σ : Editing) (m : Move) (moves : List Move) : σ.run (m :: moves) = (σ.step m).run moves := rfl

theorem run_append (σ : Editing) (moves more : List Move) : σ.run (moves ++ more) = (σ.run moves).run more :=
  List.foldl_append

/-! ## Scripts -/

/-- Moves lead from one state to the other, and all code that they leave behind was read. -/
def Plays (σ σ' : Editing) : Prop := ∃ moves, (∀ m ∈ moves, m.IsReal) ∧ σ.run moves = σ'

namespace Plays
variable {σ σ' σ'' : Editing}

theorem refl (σ : Editing) : Plays σ σ := ⟨[], nofun, rfl⟩

theorem trans (h : Plays σ σ') (h' : Plays σ' σ'') : Plays σ σ'' := by
  obtain ⟨moves, hreal, rfl⟩ := h
  obtain ⟨more, hreal', rfl⟩ := h'
  exact ⟨moves ++ more, fun m hm => (List.mem_append.1 hm).elim (hreal m) (hreal' m), run_append σ moves more⟩

theorem move {m : Move} (hm : m.IsReal) (h : σ.step m = σ') : Plays σ σ' := ⟨[m], by simpa using hm, h⟩

end Plays

/-- Whatever a computation does to an editor, moves do as well. -/
def Playable {α : Type} (x : Editor.Run α) : Prop := ∀ e visits, Plays ⟨e, visits⟩ ⟨(x e).2, visits⟩

namespace Playable
variable {α β : Type}

theorem pure (a : α) : Playable (Pure.pure a : Editor.Run α) := fun e visits => .refl ⟨e, visits⟩

theorem bind {x : Editor.Run α} {f : α → Editor.Run β} (hx : Playable x) (hf : ∀ a, Playable (f a)) :
    Playable (x >>= f) := by
  intro e visits
  rw [Editor.Run.bind_apply]
  cases (x e).1 with
  | error cause => exact hx e visits
  | ok a => exact (hx e visits).trans (hf a (x e).2 visits)

theorem discard {x : Editor.Run α} (hx : Playable x) : Playable (Functor.discard x) := by
  rw [Editor.Run.discard_eq]
  exact hx.bind fun _ => .pure ()

/-- One operation is one move, or leaves its code behind. -/
theorem perform (op : Edit) : Playable (Editor.perform op) := by
  intro e visits
  have hstep : step ⟨e, visits⟩ op.move = operate ⟨e, visits⟩ op.result := by cases op <;> rfl
  have hreal : op.move.IsReal := by cases op <;> trivial
  have hsettled := Editor.perform_settled e op
  generalize hresult : op.result e = result, Editor.perform op e = out at hsettled
  cases hsettled with
  | ok e' => exact .move hreal (by rw [hstep, operate, hresult])
  | error cause trees hcode => exact .move (m := .scrap trees) hcode rfl

/-- A failure at once changes nothing. -/
theorem fail (operation : Operation) (o : Obstacle) : Playable (Editor.Run.fail operation o : Editor.Run α) :=
  fun e visits => .refl ⟨e, visits⟩

/-- Visiting matches; the cursor comes back only when the search ends. -/
theorem each {x : Editor.Run α} (hx : Playable x) (home : NodeId) (found : List NodeId) (e : Editor)
    (visits : List Visit) : ∃ pending e', Plays ⟨e, ⟨home, found⟩ :: visits⟩ ⟨e', ⟨home, pending⟩ :: visits⟩ ∧
      e'.moveTo home = (Editor.Run.each x found (e.moveTo home)).2 := by
  induction found generalizing e with
  | nil => exact ⟨[], e, .refl _, rfl⟩
  | cons id rest ih =>
    have hthere : Editor.Run.there id x (e.moveTo home) = ((x (e.moveTo id)).1, (x (e.moveTo id)).2.moveTo home) := rfl
    have hvisit : Plays ⟨e, ⟨home, id :: rest⟩ :: visits⟩ ⟨e.moveTo id, ⟨home, rest⟩ :: visits⟩ := .move (m := .visit) trivial rfl
    have hthen := hvisit.trans (hx (e.moveTo id) (⟨home, rest⟩ :: visits))
    rw [Editor.Run.each, Editor.Run.bind_apply, hthere]
    cases (x (e.moveTo id)).1 with
    | error cause => exact ⟨rest, _, hthen, rfl⟩
    | ok a =>
      obtain ⟨pending, e', hr, he'⟩ := ih (x (e.moveTo id)).2
      refine ⟨pending, e', hthen.trans hr, ?_⟩
      simp only
      rw [Editor.Run.bind_apply, he']
      cases (Editor.Run.each x rest ((x (e.moveTo id)).2.moveTo home)).1 <;> rfl

/-- A search and its visits. -/
theorem search {x : Editor.Run α} (hx : Playable x) {m : Move} (hreal : m.IsReal) {f : Editor → List NodeId × Editor}
    (hm : ∀ σ, step σ m = Editing.search σ f) (hf : ∀ e, (f e).2.current = e.current)
    (check : List NodeId → Except EditError Unit) :
    Playable (do
      let found ← Editor.Run.ofSearch f
      ExceptT.mk (Pure.pure (check found))
      Editor.Run.each x found) := by
  intro e visits
  have hhome : (f e).2.moveTo e.current = (f e).2 := by
    rw [Editor.moveTo, ← hf e]
  have hbegin : Plays ⟨e, visits⟩ ⟨(f e).2, ⟨e.current, (f e).1⟩ :: visits⟩ := .move hreal (hm ⟨e, visits⟩)
  have hend (e' : Editor) (pending : List NodeId) : Plays ⟨e', ⟨e.current, pending⟩ :: visits⟩ ⟨e'.moveTo e.current, visits⟩ :=
    .move (m := .leave) trivial rfl
  have hfound : Editor.Run.ofSearch f e = (.ok (f e).1, (f e).2) := rfl
  have hcheck : (ExceptT.mk (Pure.pure (check (f e).1)) : Editor.Run Unit) (f e).2 = (check (f e).1, (f e).2) := rfl
  simp only [Editor.Run.bind_apply, hfound, hcheck]
  cases check (f e).1 with
  | error cause =>
    have hplays := hbegin.trans (hend (f e).2 (f e).1)
    rwa [hhome] at hplays
  | ok _ =>
    obtain ⟨pending, e', hr, he'⟩ := each hx e.current (f e).1 (f e).2 visits
    have hplays := (hbegin.trans hr).trans (hend e' pending)
    rwa [he', hhome] at hplays

end Playable

mutual
theorem runStep_playable : (s : Step) → Playable (Editor.runStep s)
  | .mk (some spec) _ expected actions => by
    rw [Editor.runStep]
    exact ((runActions_playable actions).search (m := .find spec) trivial (fun _ => rfl) (fun _ => rfl) _).discard
  | .mk none (some pattern) expected actions => by
    rw [Editor.runStep]
    exact ((runActions_playable actions).search (m := .findPattern pattern) trivial (fun _ => rfl) (fun _ => rfl) _).discard
  | .mk none none _ _ => by
    rw [Editor.runStep]
    exact .fail .runStep .noCriterion

theorem runActions_playable : (actions : List Action) → Playable (Editor.runActions actions)
  | [] => by
    rw [Editor.runActions]
    exact .pure ()
  | action :: rest => by
    rw [Editor.runActions]
    exact (runAction_playable action).bind fun _ => runActions_playable rest

theorem runAction_playable : (action : Action) → Playable (Editor.runAction action)
  | .insert position code => by
    rw [Editor.runAction]
    exact .perform (.insert position code)
  | .wrap code => by
    rw [Editor.runAction]
    exact .perform (.wrap code)
  | .change method value code => by
    rw [Editor.runAction]
    cases Editor.changeValue? value code with
    | some v => exact .perform (.change method v)
    | none => exact .fail .change .noValue
  | .gotoChild field (some index) => by
    rw [Editor.runAction]
    exact .perform (.gotoElement field index)
  | .gotoChild field none => by
    rw [Editor.runAction]
    exact .perform (.gotoChild field)
  | .gotoParent => by
    rw [Editor.runAction]
    exact .perform .gotoParent
  | .find step => by
    rw [Editor.runAction]
    exact runStep_playable step
end

/-- What a script does to an editor, whether it succeeds or fails, a run of moves does. -/
theorem runSteps_plays (steps : List Step) (e : Editor) : Plays ⟨e, []⟩ ⟨(Editor.runSteps steps e).2, []⟩ := by
  have playable : Playable (Editor.runSteps steps) := by
    induction steps with
    | nil => exact .pure ()
    | cons step rest ih => exact (runStep_playable step).bind fun _ => ih
  exact playable e []

end Editing
end Graft
