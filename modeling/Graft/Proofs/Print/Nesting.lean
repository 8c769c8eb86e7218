import Graft.Proofs.Print.Lexing
/-!
# Brackets in a printed text

`Balanced` says that the brackets among tokens pair off, and `bare` are the tokens outside of all brackets. `Passes` follows the
brackets over a part of a printed text: from those that are open before it to those that are open behind it, with a condition on
the tokens that stand outside. Parts compose (`Passes.append`), and inside a bracket the condition does not matter
(`Passes.inside`).
-/

namespace Graft.Lexical

inductive Bracket where
  | round | square | curly
  deriving DecidableEq

def opening? : String → Option Bracket
  | "(" => some .round
  | "[" => some .square
  | "\x7b" => some .curly
  | _ => none

def closing? : String → Option Bracket
  | ")" => some .round
  | "]" => some .square
  | "\x7d" => some .curly
  | _ => none

def isBracket (w : String) : Bool := (opening? w).isSome || (closing? w).isSome

/-- The brackets that are open after some tokens, or nothing if one closes that is not the last to have opened. -/
def nest : List Bracket → List String → Option (List Bracket)
  | open_, [] => some open_
  | open_, w :: ts =>
    match opening? w, closing? w, open_ with
    | some b, _, open_ => nest (b :: open_) ts
    | none, none, open_ => nest open_ ts
    | none, some b, b' :: open_ => if b = b' then nest open_ ts else none
    | none, some _, [] => none

/-- All brackets that open close again, in order. -/
def Balanced (ts : List String) : Prop := nest [] ts = some []

/-- A name follows this token. -/
def isDot (w : String) : Bool := w = "." || w = "?."

/-- The tokens outside of all brackets, but for the names behind a dot. -/
def bareFrom : List Bracket → String → List String → List String
  | _, _, [] => []
  | open_, before, w :: ts =>
    match opening? w, closing? w, open_ with
    | some b, _, open_ => bareFrom (b :: open_) w ts
    | none, some _, open_ => bareFrom open_.tail w ts
    | none, none, [] => if isDot before then bareFrom [] w ts else w :: bareFrom [] w ts
    | none, none, b :: open_ => bareFrom (b :: open_) w ts

def bare (ts : List String) : List String := bareFrom [] "" ts

/-- Going over tokens from some open brackets to others. Outside of all brackets `p` holds of each token, or it is a name behind
a dot. -/
inductive Reads (p : String → Prop) : List Bracket → List String → List Bracket → Prop
  | done {s : List Bracket} : Reads p s [] s
  | word {s s' : List Bracket} {w : String} {ts : List String} (hw : isBracket w = false) (hp : s = [] → p w) :
    Reads p s ts s' → Reads p s (w :: ts) s'
  | name {s s' : List Bracket} {dot w : String} {ts : List String} (hd : isDot dot = true) (hp : s = [] → p dot)
    (hw : isBracket w = false) : Reads p s ts s' → Reads p s (dot :: w :: ts) s'
  | opens {s s' : List Bracket} {w : String} {ts : List String} {b : Bracket} (hw : opening? w = some b) :
    Reads p (b :: s) ts s' → Reads p s (w :: ts) s'
  | closes {s s' : List Bracket} {w : String} {ts : List String} {b : Bracket} (hw : closing? w = some b) :
    Reads p s ts s' → Reads p (b :: s) (w :: ts) s'

variable {p q : String → Prop} {s s' s'' : List Bracket} {ts us : List String} {w : String} {b : Bracket}

theorem not_bracket (h : isBracket w = false) : opening? w = none ∧ closing? w = none := by
  simpa [isBracket] using h

theorem not_bracket_of_dot (h : isDot w = true) : isBracket w = false := by
  simp only [isDot, Bool.or_eq_true, decide_eq_true_eq] at h
  rcases h with rfl | rfl <;> decide

theorem not_opening (h : closing? w = some b) : opening? w = none := by
  unfold closing? at h
  split at h <;> first | rfl | cases h

theorem bareFrom_outside (hw : isBracket w = false) (before : String) :
    bareFrom [] before (w :: ts) = if isDot before then bareFrom [] w ts else w :: bareFrom [] w ts := by
  simp [bareFrom, not_bracket hw]

theorem bareFrom_inside (hw : isBracket w = false) (before : String) :
    bareFrom (b :: s) before (w :: ts) = bareFrom (b :: s) w ts := by
  simp [bareFrom, not_bracket hw]

namespace Reads

theorem append (h : Reads p s ts s') (h' : Reads p s' us s'') : Reads p s (ts ++ us) s'' := by
  induction h with
  | done => exact h'
  | word hw hp _ ih => exact .word hw hp (ih h')
  | name hd hp hw _ ih => exact .name hd hp hw (ih h')
  | opens hw _ ih => exact .opens hw (ih h')
  | closes hw _ ih => exact .closes hw (ih h')

theorem mono (h : Reads p s ts s') (hpq : ∀ w, p w → q w) : Reads q s ts s' := by
  induction h with
  | done => exact .done
  | word hw hp _ ih => exact .word hw (fun hs => hpq _ (hp hs)) ih
  | name hd hp hw _ ih => exact .name hd (fun hs => hpq _ (hp hs)) hw ih
  | opens hw _ ih => exact .opens hw ih
  | closes hw _ ih => exact .closes hw ih

/-- Inside a bracket the condition is about nothing. -/
theorem inside (h : Reads p s ts s') (r : List Bracket) : Reads q (s ++ b :: r) ts (s' ++ b :: r) := by
  induction h with
  | done => exact .done
  | word hw _ _ ih => exact .word hw (by simp) ih
  | name hd _ hw _ ih => exact .name hd (by simp) hw ih
  | opens hw _ ih => exact .opens hw ih
  | closes hw _ ih => exact .closes hw ih

theorem nest_eq (h : Reads p s ts s') : nest s ts = some s' := by
  induction h with
  | done => rfl
  | word hw _ _ ih =>
    obtain ⟨ho, hc⟩ := not_bracket hw
    simpa [nest, ho, hc] using ih
  | name hd _ hw _ ih =>
    obtain ⟨hdo, hdc⟩ := not_bracket (not_bracket_of_dot hd)
    obtain ⟨ho, hc⟩ := not_bracket hw
    simpa [nest, hdo, hdc, ho, hc] using ih
  | opens hw _ ih => simpa [nest, hw] using ih
  | closes hw _ ih => simpa [nest, not_opening hw, hw] using ih

/-- Every bare token satisfies the condition. -/
theorem of_mem_bareFrom (h : Reads p s ts s') (before : String) : ∀ w ∈ bareFrom s before ts, p w := by
  induction h generalizing before with
  | done => nofun
  | @word s _ w _ hw hp _ ih =>
    cases s with
    | nil =>
      rw [bareFrom_outside hw]
      split
      next => exact ih w
      next => exact List.forall_mem_cons.2 ⟨hp rfl, ih w⟩
    | cons b s =>
      rw [bareFrom_inside hw]
      exact ih w
  | @name s _ dot w ts hd hp hw _ ih =>
    have hdot := not_bracket_of_dot hd
    cases s with
    | nil =>
      rw [bareFrom_outside hdot, bareFrom_outside hw, if_pos hd]
      split
      next => exact ih w
      next => exact List.forall_mem_cons.2 ⟨hp rfl, ih w⟩
    | cons b s =>
      rw [bareFrom_inside hdot, bareFrom_inside hw]
      exact ih w
  | @opens s _ w _ b hw _ ih => simpa [bareFrom, hw] using ih w
  | @closes s _ w _ b hw _ ih => simpa [bareFrom, not_opening hw, hw] using ih w

theorem balanced (h : Reads p [] ts []) : Balanced ts := h.nest_eq

theorem of_mem_bare (h : Reads p [] ts []) : ∀ w ∈ bare ts, p w := h.of_mem_bareFrom ""

end Reads

/-! ## Pieces -/

/-- `Reads` of the tokens of pieces. -/
def Passes (p : String → Prop) (s : List Bracket) (ps : Pieces) (s' : List Bracket) : Prop := Reads p s (tokens ps) s'

/-- The brackets that are open after pieces that are all punctuation and outside of brackets satisfy `ok`. -/
def follow (ok : String → Bool) : List Bracket → Pieces → Option (List Bracket)
  | s, [] => some s
  | s, .blank :: ps => follow ok s ps
  | s, .line _ :: ps => follow ok s ps
  | _, .leaf _ :: _ => none
  | s, .mark w :: ps =>
    match opening? w, closing? w, s with
    | some b, _, s => follow ok (b :: s) ps
    | none, none, s => if !s.isEmpty || ok w then follow ok s ps else none
    | none, some b, b' :: s => if b = b' then follow ok s ps else none
    | none, some _, [] => none

namespace Passes
variable {ps qs : Pieces}

theorem nil : Passes p s [] s := .done

theorem append (h : Passes p s ps s') (h' : Passes p s' qs s'') : Passes p s (ps ++ qs) s'' := by
  rw [Passes, tokens_append]
  exact Reads.append h h'

theorem cons {piece : Piece} (h : Passes p s [piece] s') (h' : Passes p s' ps s'') : Passes p s (piece :: ps) s'' :=
  h.append h'

theorem mono (h : Passes p s ps s') (hpq : ∀ w, p w → q w) : Passes q s ps s' := Reads.mono h hpq

theorem inside (h : Passes p [] ps []) : Passes q (b :: s) ps (b :: s) := Reads.inside h s

theorem leaf (hw : isBracket w = false) (hp : p w) : Passes p s [.leaf w] s := .word hw (fun _ => hp) .done

theorem mark (hw : isBracket w = false) (hp : p w) : Passes p s [.mark w] s := .word hw (fun _ => hp) .done

/-- A name behind a dot may be any word. -/
theorem member {dot : String} (hd : isDot dot = true) (hp : p dot) (hw : isBracket w = false) :
    Passes p s [.mark dot, .leaf w] s :=
  .name hd (fun _ => hp) hw .done

/-- A fixed run of punctuation and blanks. -/
theorem fixed {ok : String → Bool} (hok : ∀ w, ok w = true → p w) (h : follow ok s ps = some s') : Passes p s ps s' := by
  induction ps generalizing s with
  | nil =>
    cases h
    exact nil
  | cons piece ps ih =>
    cases piece with
    | blank => exact ih h
    | line depth => exact ih h
    | leaf w => cases h
    | mark w =>
      simp only [follow] at h
      split at h
      next hw => exact .opens hw (ih h)
      next ho hc =>
        split at h
        next hs =>
          refine .word (by simp [isBracket, ho, hc]) (fun hnil => hok w ?_) (ih h)
          simpa [hnil] using hs
        next => cases h
      next hc =>
        split at h
        next hb =>
          subst hb
          exact .closes hc (ih h)
        next => cases h
      next => cases h

/-- A printed form in brackets. -/
theorem group {o c : String} (ho : opening? o = some b) (hc : closing? c = some b) (h : Passes p [] ps []) :
    Passes q s (.mark o :: ps ++ [.mark c]) s := by
  have hclose : Passes q (b :: s) [.mark c] s := .closes hc .done
  exact Reads.opens ho (append h.inside hclose)

end Passes

end Graft.Lexical
