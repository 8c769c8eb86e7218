import Graft.Text.Unicode
import Graft.Text.Unicode.Folding
/-!
# Sets of characters

A set is kept as the points at which membership changes, in order, starting outside: a code point is in the
set when an odd number of them are at most it.
-/

namespace Graft.Regex

structure CharSet where
  changes : Array Nat
  deriving DecidableEq, Inhabited

namespace CharSet

def ofChanges (changes : List Nat) : CharSet := ⟨changes.toArray⟩

def empty : CharSet := ⟨#[]⟩

/-- The code points from `first` to `last`. -/
def range (first last : Nat) : CharSet := ⟨#[first, last + 1]⟩

def single (c : Nat) : CharSet := range c c

def containsCode (s : CharSet) (c : Nat) : Bool := Unicode.inTable s.changes c

def contains (s : CharSet) (c : Char) : Bool := s.containsCode c.toNat

/-- Goes through the changes of two sets at once. `inA`, `inB` and `inside` say how things stand before
the next change. -/
def merge (keep : Bool → Bool → Bool) : Bool → Bool → Bool → List Nat → List Nat → List Nat
  | _, _, _, [], [] => []
  | inA, inB, inside, a :: as, [] =>
    let now := keep (!inA) inB
    let rest := merge keep (!inA) inB now as []
    if now = inside then rest else a :: rest
  | inA, inB, inside, [], b :: bs =>
    let now := keep inA (!inB)
    let rest := merge keep inA (!inB) now [] bs
    if now = inside then rest else b :: rest
  | inA, inB, inside, a :: as, b :: bs =>
    if a < b then
      let now := keep (!inA) inB
      let rest := merge keep (!inA) inB now as (b :: bs)
      if now = inside then rest else a :: rest
    else if b < a then
      let now := keep inA (!inB)
      let rest := merge keep inA (!inB) now (a :: as) bs
      if now = inside then rest else b :: rest
    else
      let now := keep (!inA) (!inB)
      let rest := merge keep (!inA) (!inB) now as bs
      if now = inside then rest else a :: rest
termination_by _ _ _ as bs => as.length + bs.length

/-- The code points that `keep` accepts, given whether they are in the one set and in the other. -/
def combine (keep : Bool → Bool → Bool) (s t : CharSet) : CharSet :=
  let outside := keep false false
  let rest := merge keep false false outside s.changes.toList t.changes.toList
  ofChanges (if outside then 0 :: rest else rest)

def union (s t : CharSet) : CharSet := combine (· || ·) s t

def inter (s t : CharSet) : CharSet := combine (· && ·) s t

def diff (s t : CharSet) : CharSet := combine (fun a b => a && !b) s t

def symmDiff (s t : CharSet) : CharSet := combine xor s t

def compl (s : CharSet) : CharSet := combine (fun a _ => !a) s empty

def unionAll (sets : List CharSet) : CharSet := sets.foldl union empty

/-- Has the set no member above 127? -/
def isAscii (s : CharSet) : Bool := s.changes.all fun c => c ≤ 128

/-- Number of stretches of neighbours in the set. -/
def stretches (s : CharSet) : Nat := (s.changes.size + 1) / 2

/-- The set with every character that differs from a member in case only. -/
def foldCase (s : CharSet) : CharSet :=
  Unicode.foldingClasses.foldl (fun acc members =>
    if members.any s.containsCode then members.foldl (fun acc c => if acc.containsCode c then acc else acc.union (single c)) acc
    else acc) s

/-- The same for ASCII letters alone. -/
def foldAsciiCase (s : CharSet) : CharSet :=
  (List.range 26).foldl (fun acc i =>
    if s.containsCode (65 + i) || s.containsCode (97 + i) then (acc.union (single (65 + i))).union (single (97 + i))
    else acc) s

end CharSet
end Graft.Regex
