import Graft.Proofs.Print.Nesting
/-!
# How far a part of a statement goes

Who reads statements need not read the expressions in them, only find their ends: the parenthesis that closes a condition, the
semicolon of a statement, the colon of a case, the body of a class. A reader goes over the tokens with the brackets that are open and
a state for what it has seen outside of them (`run`), and stops at the first token that it does not take (`extent`).
-/

namespace Graft.Lexical

section Reader
variable {κ : Type} (take : κ → String → Option κ)

/-- One token more. Outside of all brackets `take` decides on it, a bracket that opens included. -/
def advance : List Bracket × κ → String → Option (List Bracket × κ)
  | ([], x), w =>
    match opening? w, closing? w with
    | some b, _ => (take x w).map ([b], ·)
    | none, some _ => none
    | none, none => (take x w).map ([], ·)
  | (b :: open_, x), w =>
    match opening? w, closing? w with
    | some b', _ => some (b' :: b :: open_, x)
    | none, some b' => if b' = b then some (open_, x) else none
    | none, none => some (b :: open_, x)

def run : List Bracket × κ → List String → Option (List Bracket × κ)
  | m, [] => some m
  | m, w :: ts => (advance take m w).bind fun m' => run m' ts

/-- The tokens that are taken, what is known after them, and the others. -/
def extent : List Bracket × κ → List String → List String × (List Bracket × κ) × List String
  | m, [] => ([], m, [])
  | m, w :: ts =>
    match advance take m w with
    | none => ([], m, w :: ts)
    | some m' =>
      let (us, last, rest) := extent m' ts
      (w :: us, last, rest)

end Reader

/-! ## The parts of statements -/

/-- What stands in the parentheses at the front. -/
def group (ts : List String) : Option (List String × List String) :=
  match ts with
  | "(" :: ts =>
    match extent (fun _ _ => some ()) ([], ()) ts with
    | (us, _, ")" :: rest) => some (us, rest)
    | _ => none
  | _ => none

/-- Each `?` outside of brackets asks for a `:`. The state is the number of those that are still to come. -/
def inLine (asked : Nat) (w : String) : Option Nat :=
  if w = ";" then none
  else if w = "?" then some (asked + 1)
  else if w = ":" then (if asked = 0 then none else some (asked - 1))
  else some asked

/-- What stands before a semicolon, or a colon that no `?` has asked for, the first one outside of brackets. -/
def upTo (stop : String) (ts : List String) : Option (List String × List String) :=
  match extent inLine ([], 0) ts with
  | (us, ([], 0), w :: rest) => if w = stop then some (us, rest) else none
  | _ => none

/-- Inside a class or a function: how many bodies are to come, whether a value is about to start, and whether the token before is
a dot. -/
structure Heritage where
  bodies : Nat
  wants : Bool
  dotted : Bool
  deriving DecidableEq

/-- A brace opens an object where a value is about to start, and else a body. After the last body nothing is taken. -/
def Heritage.take (x : Heritage) (w : String) : Option Heritage :=
  if x.dotted then some ⟨x.bodies, false, false⟩
  else if x.bodies = 0 && !x.wants then none
  else if isDot w then some ⟨x.bodies, false, true⟩
  else if w = "class" || w = "function" then some ⟨x.bodies + 1, false, false⟩
  else if w = "extends" || w = "new" then some ⟨x.bodies, true, false⟩
  else if w = "\x7b" && !x.wants then some ⟨x.bodies - 1, false, false⟩
  else some ⟨x.bodies, false, false⟩

/-- A class, up to the end of its body. -/
def classText (ts : List String) : Option (List String × List String) :=
  match extent Heritage.take ([], ⟨0, true, false⟩) ts with
  | (us, ([], ⟨0, false, false⟩), rest) => some (us, rest)
  | _ => none

/-! ## Runs -/

section Reader
variable {κ : Type} {take : κ → String → Option κ} {m m' m'' : List Bracket × κ} {x y z : κ} {s s' r : List Bracket} {b : Bracket}
  {ts us rest : List String} {w : String}

theorem run_append (h : run take m ts = some m') : run take m (ts ++ us) = run take m' us := by
  induction ts generalizing m with
  | nil =>
    cases h
    rfl
  | cons w ts ih =>
    obtain ⟨m₁, hw, h⟩ := Option.bind_eq_some_iff.1 h
    simpa [run, hw] using ih h

theorem extent_append (h : run take m us = some m') :
    extent take m (us ++ ts) = (us ++ (extent take m' ts).1, (extent take m' ts).2) := by
  induction us generalizing m with
  | nil =>
    cases h
    rfl
  | cons w us ih =>
    obtain ⟨m₁, hw, h⟩ := Option.bind_eq_some_iff.1 h
    simp [extent, hw, ih h]

/-- The tokens up to one that is not taken. -/
theorem extent_stop (h : run take m us = some m') (hw : advance take m' w = none) :
    extent take m (us ++ w :: rest) = (us, m', w :: rest) := by
  rw [extent_append h, extent, hw]
  simp

variable (take) in
theorem length_extent (m : List Bracket × κ) (ts : List String) : (extent take m ts).2.2.length ≤ ts.length := by
  induction ts generalizing m with
  | nil => exact Nat.le_refl _
  | cons w ts ih =>
    unfold extent
    split
    next => exact Nat.le_refl _
    next m' _ => exact Nat.le_succ_of_le (ih m')

theorem advance_word (hw : isBracket w = false) : advance take ([], x) w = (take x w).map ([], ·) := by
  simp [advance, not_bracket hw]

theorem advance_opening (hw : opening? w = some b) : advance take ([], x) w = (take x w).map ([b], ·) := by
  simp [advance, hw]

/-- Inside of a bracket the reader goes by the brackets alone, and so it does where all tokens leave its state as it is. -/
theorem run_nest (h : nest s ts = some s') (hr : r ≠ [] ∨ ∀ w, take x w = some x) :
    run take (s ++ r, x) ts = some (s' ++ r, x) := by
  induction ts generalizing s with
  | nil =>
    cases h
    rfl
  | cons w ts ih =>
    cases ho : opening? w with
    | some b =>
      have hrest := ih (s := b :: s) (by simpa [nest, ho] using h)
      have hw : advance take (s ++ r, x) w = some (b :: s ++ r, x) := by
        cases hsr : s ++ r with
        | nil =>
          obtain ⟨rfl, rfl⟩ := List.append_eq_nil_iff.1 hsr
          simp [advance, ho, hr.resolve_left fun h => h rfl]
        | cons top open_ => simp [advance, ho, hsr]
      rwa [run, hw]
    | none =>
      cases hc : closing? w with
      | some b =>
        cases s with
        | nil => simp [nest, ho, hc] at h
        | cons top s =>
          obtain ⟨rfl, hs⟩ : b = top ∧ nest s ts = some s' := by simpa [nest, ho, hc] using h
          simpa [run, advance, ho, hc] using ih hs
      | none =>
        have hrest := ih (s := s) (by simpa [nest, ho, hc] using h)
        have hw : advance take (s ++ r, x) w = some (s ++ r, x) := by
          cases hsr : s ++ r with
          | nil =>
            obtain ⟨rfl, rfl⟩ := List.append_eq_nil_iff.1 hsr
            simp [advance, ho, hc, hr.resolve_left fun h => h rfl]
          | cons top open_ => simp [advance, ho, hc]
        rwa [run, hw]

/-- A group of brackets counts as the bracket that opens it. -/
theorem run_group {o c : String} (ho : opening? o = some b) (hc : closing? c = some b) (h : Balanced ts) (hx : take x o = some y) :
    run take ([], x) (o :: ts ++ [c]) = some ([], y) := by
  have hinside : run take ([b], y) ts = some ([b], y) := run_nest h (.inl (List.cons_ne_nil b []))
  have hopen : advance take ([], x) o = some ([b], y) := by rw [advance_opening ho, hx]; rfl
  have hclose : advance take ([b], y) c = some ([], y) := by simp [advance, not_opening hc, hc]
  rw [List.cons_append, run, hopen, Option.bind_some, run_append hinside, run, hclose]
  rfl

end Reader

/-! ## Where the parts end -/

variable {us rest ts : List String}

theorem group_eq (h : Balanced us) : group ("(" :: (us ++ ")" :: rest)) = some (us, rest) := by
  have hrun : run (fun _ _ => some ()) ([], ()) us = some ([], ()) := run_nest (r := []) h (.inr fun _ => rfl)
  simp [group, extent_stop hrun (show advance _ _ ")" = none from rfl)]

theorem upTo_eq {stop : String} (hstop : advance inLine ([], 0) stop = none) (h : run inLine ([], 0) us = some ([], 0)) :
    upTo stop (us ++ stop :: rest) = some (us, rest) := by
  simp [upTo, extent_stop h hstop]

theorem classText_eq (h : run Heritage.take ([], ⟨0, true, false⟩) us = some ([], ⟨0, false, false⟩)) :
    classText (us ++ rest) = some (us, rest) := by
  have hstop : extent Heritage.take ([], ⟨0, false, false⟩) rest = ([], ([], ⟨0, false, false⟩), rest) := by
    cases rest with
    | nil => rfl
    | cons w rest =>
      have hw : advance Heritage.take ([], ⟨0, false, false⟩) w = none := by
        unfold advance
        simp only [Heritage.take]
        split <;> rfl
      rw [extent, hw]
  simp [classText, extent_append h, hstop]

theorem length_group (h : group ts = some (us, rest)) : rest.length < ts.length := by
  unfold group at h
  split at h
  next ts =>
    have := length_extent (fun _ _ => some ()) ([], ()) ts
    split at h
    next he =>
      cases h
      rw [he] at this
      simp only [List.length_cons] at this ⊢
      omega
    next => cases h
  next => cases h

theorem length_upTo {stop : String} (h : upTo stop ts = some (us, rest)) : rest.length < ts.length := by
  have hle := length_extent inLine ([], 0) ts
  unfold upTo at h
  split at h
  next he =>
    split at h
    next =>
      cases h
      rw [he] at hle
      exact hle
    next => cases h
  next => cases h

theorem length_classText (h : classText ts = some (us, rest)) : rest.length ≤ ts.length := by
  have := length_extent Heritage.take ([], ⟨0, true, false⟩) ts
  unfold classText at h
  split at h
  next he =>
    cases h
    rw [he] at this
    exact this
  next => cases h

/-- Behind the first word of a line there is no colon. -/
theorem head_ne_colon {w : String} (hw : isBracket w = false) (hq : w ≠ "?") (h : run inLine ([], 0) (w :: us) = some ([], 0)) :
    (us ++ ";" :: rest).head? ≠ some ":" := by
  obtain ⟨m, hm, hus⟩ := Option.bind_eq_some_iff.1 h
  rw [advance_word hw, Option.map_eq_some_iff] at hm
  obtain ⟨n, hn, rfl⟩ := hm
  have hzero : n = 0 := by
    unfold inLine at hn
    split_ifs at hn <;> exact (Option.some.inj hn).symm
  subst hzero
  cases us with
  | nil => simp
  | cons v us =>
    rintro hv
    obtain rfl : v = ":" := by simpa using hv
    cases hus

end Graft.Lexical
