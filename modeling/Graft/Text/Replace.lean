/-!
# Replacing literal text

A scan from left to right cuts a text at the occurrences of a pattern; what it puts in their place is not
scanned again. An empty pattern occurs nowhere.
-/

namespace Graft.Text

/-- What follows a pattern at the start of a text, if the text starts with it. -/
def after? : List Char → List Char → Option (List Char)
  | [], text => some text
  | _ :: _, [] => none
  | p :: pattern, c :: text => if p = c then after? pattern text else none

theorem after?_length_le {pattern text rest : List Char} (h : after? pattern text = some rest) :
    rest.length ≤ text.length := by
  induction pattern generalizing text with
  | nil => simp only [after?, Option.some.injEq] at h; simp [h]
  | cons p pattern ih =>
    cases text with
    | nil => simp [after?] at h
    | cons c text =>
      simp only [after?] at h
      split at h
      · have := ih h; simp only [List.length_cons]; omega
      · simp at h

/-- The stretches of a text between occurrences of `p :: pattern`; the first one goes on from `gap`, which
is reversed. -/
def gapsFrom (p : Char) (pattern gap : List Char) (text : List Char) : List (List Char) :=
  match text with
  | [] => [gap.reverse]
  | c :: rest =>
    if p = c then
      match _found : after? pattern rest with
      | some after => gap.reverse :: gapsFrom p pattern [] after
      | none => gapsFrom p pattern (c :: gap) rest
    else gapsFrom p pattern (c :: gap) rest
termination_by text.length
decreasing_by
  · have := after?_length_le ‹_›; simp only [List.length_cons]; omega
  · simp
  · simp

/-- The stretches of a text between the occurrences of a pattern. -/
def gaps : List Char → List Char → List (List Char)
  | [], text => [text]
  | p :: pattern, text => gapsFrom p pattern [] text

/-- The text with every occurrence of `old` replaced by `new`, and the number of occurrences. -/
def replaceLiteral (text old new : String) : String × Nat :=
  let parts := gaps old.toList text.toList
  (new.intercalate (parts.map String.ofList), parts.length - 1)

end Graft.Text
