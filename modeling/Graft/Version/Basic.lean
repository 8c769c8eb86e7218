import Graft.Number.Power
import Graft.Text.Unicode
/-!
# Versions

Semantic versions: three numbers of 64 bits without leading zeros, then perhaps a pre-release and build data. A
pre-release comes before its release, and build data count for nothing.
-/

namespace Graft

/-- A version; no identifiers at all is no pre-release. -/
structure Version where
  major : Nat
  minor : Nat
  patch : Nat
  pre : List String
  build : List String
  deriving DecidableEq, Inhabited

namespace Version

/-! ## Reading -/

/-- A number at the front of a text, and the text after it. -/
def number? (cs : List Char) : Option (Nat × List Char) :=
  let digits := cs.takeWhile Unicode.isAsciiDigit
  let n := digits.foldl (fun n c => n * 10 + (c.toNat - 48)) 0
  if digits.isEmpty || (digits.head? = some '0' && 1 < digits.length) || twoTo 64 ≤ n then none
  else some (n, cs.dropWhile Unicode.isAsciiDigit)

/-- The text after a character that has to come first. -/
def after? (c : Char) : List Char → Option (List Char)
  | d :: rest => if d = c then some rest else none
  | [] => none

def isIdentifierPart (c : Char) : Bool := Unicode.isAsciiLetter c || Unicode.isAsciiDigit c || c = '-'

/-- Identifiers with dots between them, none of them empty, and the text after them. -/
def identifiers? : Nat → List Char → Option (List String × List Char)
  | 0, _ => none
  | fuel + 1, cs =>
    let first := String.ofList (cs.takeWhile isIdentifierPart)
    if first.isEmpty then none
    else
      match cs.dropWhile isIdentifierPart with
      | '.' :: rest => (identifiers? fuel rest).map fun (more, after) => (first :: more, after)
      | after => some ([first], after)

/-- Is this a number with a zero too many in front? -/
def hasLeadingZero (identifier : String) : Bool :=
  let cs := identifier.toList
  1 < cs.length && cs.head? = some '0' && cs.all Unicode.isAsciiDigit

/-- A pre-release after its hyphen. -/
def prerelease? (cs : List Char) : Option (List String × List Char) := do
  let (ids, rest) ← identifiers? (cs.length + 1) cs
  if ids.any hasLeadingZero then none else some (ids, rest)

/-- A part after its sign, if the sign is there. -/
def optional? (sign : Char) (part : List Char → Option (List String × List Char)) (cs : List Char) :
    Option (List String × List Char) :=
  match after? sign cs with
  | some rest => part rest
  | none => some ([], cs)

def buildData? (cs : List Char) : Option (List String × List Char) := identifiers? (cs.length + 1) cs

/-- The version that a whole text gives. -/
def read? (text : String) : Option Version := do
  let (major, rest) ← number? text.toList
  let (minor, rest) ← number? (← after? '.' rest)
  let (patch, rest) ← number? (← after? '.' rest)
  let (pre, rest) ← optional? '-' prerelease? rest
  let (build, rest) ← optional? '+' buildData? rest
  if rest.isEmpty then some ⟨major, minor, patch, pre, build⟩ else none

/-! ## Order of pre-releases -/

/-- Numbers go by value and before all other identifiers, which go by code points. -/
def compareIdentifiers (a b : String) : Ordering :=
  match a.toList.all Unicode.isAsciiDigit, b.toList.all Unicode.isAsciiDigit with
  | true, false => .lt
  | false, true => .gt
  | true, true => (compare a.length b.length).then (compare a b)
  | false, false => compare a b

/-- The first difference decides; of two lists one of which begins the other, the shorter comes first. -/
def compareIdentifierLists : List String → List String → Ordering
  | [], [] => .eq
  | [], _ :: _ => .lt
  | _ :: _, [] => .gt
  | a :: as, b :: bs => (compareIdentifiers a b).then (compareIdentifierLists as bs)

/-- A release comes after its pre-releases. -/
def comparePre (a b : List String) : Ordering :=
  match a, b with
  | [], [] => .eq
  | [], _ => .gt
  | _, [] => .lt
  | a, b => compareIdentifierLists a b

end Version
end Graft
