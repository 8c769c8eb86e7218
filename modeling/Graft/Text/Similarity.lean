/-!
# Similarity of words

The Jaro-Winkler similarity of two texts, as an exact fraction: the share of characters that match near
their places, less for those out of order, more for a common beginning.
-/

namespace Graft.Similarity

/-- A nonnegative fraction. -/
structure Fraction where
  num : Nat
  den : Nat

namespace Fraction

def le (a b : Fraction) : Bool := a.num * b.den ≤ b.num * a.den

def lt (a b : Fraction) : Bool := a.num * b.den < b.num * a.den

end Fraction

/-- How far from its place a character may be found. -/
def reach (a b : List Char) : Nat := max a.length b.length / 2 - 1

/-- Marks the first free place of `b`, from `low` to below `high`, that holds `c`. -/
def claim (c : Char) (low high : Nat) : Nat → List (Char × Bool) → Option (List (Char × Bool))
  | _, [] => none
  | i, (d, taken) :: rest =>
    if low ≤ i && i < high && !taken && c = d then some ((d, true) :: rest)
    else (claim c low high (i + 1) rest).map ((d, taken) :: ·)

/-- The characters of `a` that find a partner in `b`, and the marked places of `b`. -/
def pair (reach : Nat) : Nat → List Char → List (Char × Bool) → List Char × List (Char × Bool)
  | _, [], b => ([], b)
  | i, c :: rest, b =>
    match claim c (i - reach) (i + reach + 1) 0 b with
    | some b => let (found, b) := pair reach (i + 1) rest b; (c :: found, b)
    | none => pair reach (i + 1) rest b

def jaro (a b : List Char) : Fraction :=
  if a.isEmpty && b.isEmpty then ⟨1, 1⟩
  else if a.isEmpty || b.isEmpty then ⟨0, 1⟩
  else
    let (found, marked) := pair (reach a b) 0 a (b.map (·, false))
    let partners := (marked.filter Prod.snd).map Prod.fst
    let m := found.length
    if m = 0 then ⟨0, 1⟩
    else
      let t := ((found.zip partners).filter fun (x, y) => x ≠ y).length / 2
      let la := a.length
      let lb := b.length
      -- (m / la + m / lb + (m - t) / m) / 3
      ⟨m * lb * m + m * la * m + (m - t) * la * lb, 3 * la * lb * m⟩

/-- How many characters two texts share at their start. -/
def commonStart : List Char → List Char → Nat
  | a :: as, b :: bs => if a = b then commonStart as bs + 1 else 0
  | _, _ => 0

def jaroWinkler (a b : List Char) : Fraction :=
  let j := jaro a b
  if Fraction.lt ⟨7, 10⟩ j then
    let p := min 4 (commonStart a b)
    -- j + p / 10 * (1 - j)
    ⟨10 * j.num + p * (j.den - j.num), 10 * j.den⟩
  else j

/-- The most similar of some words, the last of equals, if its similarity is at least `least`. -/
def nearest? (least : Fraction) (word : String) (candidates : List String) : Option String :=
  (candidates.foldl (fun best c =>
      let score := jaroWinkler word.toList c.toList
      if !Fraction.le least score then best
      else match best with
        | some (_, top) => if Fraction.le top score then some (c, score) else best
        | none => some (c, score))
    none).map Prod.fst

end Graft.Similarity
