import Graft.Proofs.Syntax.Trees
/-!
# Nodes mapped child by child

`Node.map` replaces every child of a node, and a traversal is such a map where its actions succeed at all children
(`Node.traverse_eq_map`) or only change a state (`Node.traverse_fst`). After any traversal, a map is part of it (`Node.map_traverse`).
-/

namespace Graft
namespace Node

variable {α β γ : Type}

/-- Replaces every child. -/
def map (f : α → β) (n : Node α) : Node β := Id.run (n.traverse fun a => pure (f a))

section Laws
variable {m : Type → Type} [Monad m] [LawfulMonad m] {f : α → β}

theorem traverseList_pure {g : γ → m β} {h : γ → β} (hg : ∀ c, g c = pure (h c)) (cs : List γ) :
    traverseList g cs = pure (cs.map h) := by
  induction cs with
  | nil => rfl
  | cons c cs ih => simp [traverseList, hg, ih]

theorem traverseOption_pure {g : α → m β} (hg : ∀ a, g a = pure (f a)) (o : Option α) :
    traverseOption g o = pure (o.map f) := by
  cases o <;> simp [traverseOption, hg]

theorem traverse_pure (n : Node α) : n.traverse (fun a => (pure (f a) : m β)) = pure (n.map f) := by
  have list (as : List α) := traverseList_pure (fun a => (rfl : (pure (f a) : m β) = _)) as
  have list' (as : List α) := traverseList_pure (fun a => (rfl : (pure (f a) : Id β) = _)) as
  have option (o : Option α) := traverseOption_pure (fun a => (rfl : (pure (f a) : m β) = _)) o
  have option' (o : Option α) := traverseOption_pure (fun a => (rfl : (pure (f a) : Id β) = _)) o
  have holes (as : List (Option α)) := traverseList_pure option as
  have holes' (as : List (Option α)) := traverseList_pure option' as
  cases n <;> simp [map, traverse, traverseFunc, traverseClass, list, list', option, option', holes, holes']

theorem map_traverse (g : β → γ) (a : α → m β) (n : Node α) : map g <$> n.traverse a = n.traverse fun x => g <$> a x := by
  have list (as : List α) : traverseList (fun x => g <$> a x) as = List.map g <$> traverseList a as := by
    induction as with
    | nil => simp [traverseList]
    | cons x as ih => simp [traverseList, ih]
  have option (o : Option α) : traverseOption (fun x => g <$> a x) o = Option.map g <$> traverseOption a o := by
    cases o <;> simp [traverseOption]
  have holes (as : List (Option α)) :
      traverseList (traverseOption fun x => g <$> a x) as = List.map (Option.map g) <$> traverseList (traverseOption a) as := by
    induction as with
    | nil => simp [traverseList]
    | cons x as ih => simp [traverseList, ih, option]
  have list' (bs : List β) := traverseList_pure (fun b => (rfl : (pure (g b) : Id γ) = _)) bs
  have option' (o : Option β) := traverseOption_pure (fun b => (rfl : (pure (g b) : Id γ) = _)) o
  have holes' (bs : List (Option β)) := traverseList_pure option' bs
  cases n <;> simp [map, traverse, traverseFunc, traverseClass, list, list', option, option', holes, holes']

end Laws

theorem children_map (f : α → β) (n : Node α) : (n.map f).children = n.children.map f := by
  have h := children_traverse (fun a => (pure (f a) : Id β)) n
  rw [traverseList_pure (fun _ => rfl)] at h
  exact h

theorem map_map (f : α → β) (g : β → γ) (n : Node α) : (n.map f).map g = n.map fun a => g (f a) :=
  map_traverse g (fun a => (pure (f a) : Id β)) n

/-- A traversal that gives back every child gives back the node, whatever it does to the state. -/
theorem traverse_fst {S : Type} {a : α → StateM S α} (h : ∀ x s, (a x s).1 = x) (n : Node α) (s : S) :
    (n.traverse a s).1 = n := by
  have list (as : List α) (s : S) : (traverseList a as s).1 = as := by
    induction as generalizing s with
    | nil => rfl
    | cons x as ih =>
      change (a x s).1 :: (traverseList a as (a x s).2).1 = _
      rw [h, ih]
  have option (o : Option α) (s : S) : (traverseOption a o s).1 = o := by
    cases o with
    | none => rfl
    | some x => exact congrArg some (h x s)
  have holes (as : List (Option α)) (s : S) : (traverseList (traverseOption a) as s).1 = as := by
    induction as generalizing s with
    | nil => rfl
    | cons o as ih =>
      change (traverseOption a o s).1 :: (traverseList (traverseOption a) as (traverseOption a o s).2).1 = _
      rw [option, ih]
  have bind_apply {A B : Type} (x : StateM S A) (k : A → StateM S B) (s : S) : (x >>= k) s = k (x s).1 (x s).2 := rfl
  have pure_apply {A : Type} (x : A) (s : S) : ((pure x : StateM S A) s).1 = x := rfl
  have map_apply {A B : Type} (g : A → B) (x : StateM S A) (s : S) : ((g <$> x) s).1 = g (x s).1 := rfl
  cases n <;>
    simp [traverse, traverseFunc, traverseClass, bind_apply, pure_apply, map_apply, h, list, option, holes]

/-- A traversal that succeeds at all children maps them. -/
theorem traverse_eq_map {f : α → β} {g : α → Option β} {n : Node α} (h : ∀ c ∈ n.children, g c = some (f c)) :
    n.traverse g = some (n.map f) := (traverse_congr h).trans (traverse_pure n)

theorem map_congr {f g : α → β} {n : Node α} (h : ∀ c ∈ n.children, f c = g c) : n.map f = n.map g := by
  have hsome := (traverse_pure (m := Option) (f := f) n).symm.trans (traverse_eq_map fun c hc => congrArg some (h c hc))
  exact Option.some.inj hsome

end Node
end Graft
