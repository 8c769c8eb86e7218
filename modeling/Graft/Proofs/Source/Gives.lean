import Graft.Source.State
/-!
# What readers give

`Gives r P` says that whatever `r` gives, from whatever state, is as `P` says. A reader that fails gives nothing. The rules follow
the shapes that readers are written in.
-/

namespace Graft.Source

open Read

variable {α β : Type} {r r' : Read α} {P P' : α → Prop} {Q : β → Prop}

/-- All results of a reader are of a kind. -/
def Gives (r : Read α) (P : α → Prop) : Prop := ∀ s a s', r.run s = some (a, s') → P a

namespace Gives

theorem pure {a : α} (h : P a) : Gives (Pure.pure a) P := by
  rintro s a s' ⟨⟩
  exact h

theorem failure : Gives (Alternative.failure : Read α) P := by
  rintro s a s' ⟨⟩

theorem bind {f : α → Read β} (hr : Gives r P) (hf : ∀ a, P a → Gives (f a) Q) : Gives (r >>= f) Q := by
  intro s b s'' h
  obtain ⟨⟨a, s'⟩, ha, hb⟩ := Option.bind_eq_some_iff.1 h
  exact hf a (hr s a s' ha) s' b s'' hb

/-- What the first reader gives does not count. -/
theorem after {f : α → Read β} (hf : ∀ a, Gives (f a) Q) : Gives (r >>= f) Q :=
  bind (P := fun _ => True) (fun _ _ _ _ => trivial) fun a _ => hf a

theorem orElse (hr : Gives r P) (hr' : Gives r' P) : Gives (r <|> r') P := by
  intro s a s' h
  change (r.run s).orElse (fun _ => r'.run s) = some (a, s') at h
  cases hs : r.run s with
  | none =>
    rw [hs] at h
    exact hr' s a s' h
  | some first =>
    rw [hs] at h
    exact hr s a s' (hs.trans h)

theorem mono (hr : Gives r P) (h : ∀ a, P a → P' a) : Gives r P' := fun s a s' he => h a (hr s a s' he)

theorem ite {c : Prop} [Decidable c] (hr : Gives r P) (hr' : Gives r' P) : Gives (if c then r else r') P := by
  split
  next => exact hr
  next => exact hr'

/-- Two ways to a value, and what is done with it. -/
theorem iteBind {c : Prop} [Decidable c] {f : α → Read β} (hr : Gives r P) (hr' : Gives r' P)
    (hf : ∀ a, P a → Gives (f a) Q) : Gives (if c then r >>= f else r' >>= f) Q := ite (hr.bind hf) (hr'.bind hf)

theorem iteAfter {c : Prop} [Decidable c] {f : α → Read β} (hf : ∀ a, Gives (f a) Q) :
    Gives (if c then r >>= f else r' >>= f) Q := ite (after hf) (after hf)

/-- A step that is taken or not. -/
theorem skip {c : Prop} [Decidable c] {step : Read Unit} {f : Unit → Read β} (hf : Gives (f ()) Q) :
    Gives (if c then step >>= f else f ()) Q := ite (after fun _ => hf) hf

theorem map {f : α → β} (hr : Gives r fun a => Q (f a)) : Gives (f <$> r) Q := by
  intro s b s' h
  obtain ⟨⟨a, s''⟩, ha, hb⟩ := Option.bind_eq_some_iff.1 h
  cases hb
  exact hr s a s' ha

theorem require {o : Option α} (h : ∀ a ∈ o, P a) : Gives (require o) P := by
  cases o with
  | none => exact failure
  | some a => exact pure (h a rfl)

theorem collect {body : Read (Option α)} (hb : Gives body fun o => ∀ a ∈ o, P a) (n : Nat) {acc : List α}
    (hacc : ∀ a ∈ acc, P a) : Gives (collect body n acc) fun as => ∀ a ∈ as, P a := by
  induction n generalizing acc with
  | zero => exact failure
  | succ n ih =>
    refine bind hb fun o ho => ?_
    cases o with
    | none => exact pure (by simpa using hacc)
    | some a =>
      refine ih fun b hmem => ?_
      rcases List.mem_cons.1 hmem with rfl | hmem
      · exact ho b rfl
      · exact hacc b hmem

end Gives
end Graft.Source
