import Graft.Proofs.Edit.InPlace
import Graft.Proofs.Edit.Tidy
import Graft.Proofs.Syntax.Trees
/-!
# Failed operations

An operation that fails leaves the cursor, all links and all nodes as they were (`Editor.perform_untouched`), also if it
failed after it had read its code: what it read stays in slots of its own, and no node that was there reaches them, so
the text is the same.
-/

namespace Graft
namespace Editor

variable {e e' : Editor} {op : Edit} {cause : EditError}

/-- `e'` is `e`, but for more slots that nothing in `e` reaches. -/
structure Untouched (e e' : Editor) : Prop where
  current : e'.current = e.current
  parents : e'.parents = e.parents
  root : e'.store.root = e.store.root
  grown : e.store.size ≤ e'.store.size
  content : ∀ x : NodeId, x.index < e.store.size → e'.store.get x = e.store.get x
  apart : ∀ x y : NodeId, x.index < e.store.size → Below e'.store.children x y → y.index < e.store.size
  text : e'.print = e.print

/-- Trees that nothing holds are not seen from a closed store. -/
theorem scrapped_untouched (hs : e.store.Closed) (hroot : e.store.root.index < e.store.size) (trees : List Tree) :
    Untouched e (e.scrapped trees) := by
  have hplanted := (Store.insertAll_planted trees e.store).toExtends
  refine ⟨rfl, rfl, hplanted.root, hplanted.size, hplanted.get, fun x y hx hy => hplanted.below_lt hs hx hy, ?_⟩
  unfold print scrapped
  dsimp only
  rw [hplanted.root, hplanted.tree hs hroot]

/-- An operation fails in place only where it fails by itself, with the same error. -/
theorem perform_error (h : perform op e = (.error cause, e')) :
    op.result e = .error cause ∧ ∃ trees, e' = e.scrapped trees := by
  have hsettled := perform_settled e op
  rw [h] at hsettled
  generalize op.result e = result at hsettled
  cases hsettled with
  | error _ trees _ => exact ⟨rfl, trees, rfl⟩

/-- A single operation that fails on an editor whose nodes hold only nodes of its store leaves it as it was. -/
theorem perform_untouched (op : Edit) (hs : e.store.Closed) (hroot : e.store.root.index < e.store.size)
    (h : perform op e = (.error cause, e')) : Untouched e e' := by
  obtain ⟨-, trees, rfl⟩ := perform_error h
  exact scrapped_untouched hs hroot trees

/-- The arrow function that is to wrap `f` is read, and found to have a parameter too few. -/
theorem short_wrapper_untouched : ∃ t e cause e', Source.readProgram "function f(a) { return a; }" = .ok t ∧
    (ofTree t).gotoElement "body" 0 = .ok e ∧ perform (.wrap "(original) => original") e = (.error cause, e') ∧
    e.store.size < e'.store.size ∧ Untouched e e' := by
  have facts : ((Source.readProgram "function f(a) { return a; }").toOption.any fun t =>
      ((ofTree t).gotoElement "body" 0).toOption.any fun e =>
        let failed := perform (.wrap "(original) => original") e
        failed.1.toOption.isNone ∧ e.store.size < failed.2.store.size) = true := by decide +kernel
  cases hr : Source.readProgram "function f(a) { return a; }" with
  | error => simp [hr, Except.toOption] at facts
  | ok t =>
    simp only [hr, Except.toOption, Option.any_some] at facts
    cases hg : (ofTree t).gotoElement "body" 0 with
    | error => simp [hg] at facts
    | ok e =>
      simp only [hg, Option.any_some] at facts
      obtain ⟨hfails, hread⟩ := of_decide_eq_true facts
      obtain ⟨K, -, hsound⟩ := (gotoElement_kept (Sound.ofTree t) hg).1
      rcases hp : perform (.wrap "(original) => original") e with ⟨cause | _, e'⟩
      · refine ⟨t, e, cause, e', rfl, hg, hp, ?_, perform_untouched _ hsound.arena (hsound.inside _ hsound.root) hp⟩
        simpa [hp] using hread
      · simp [hp] at hfails

end Editor
end Graft
