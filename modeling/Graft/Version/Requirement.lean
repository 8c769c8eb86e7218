import Graft.Version.Basic
/-!
# Version requirements

A requirement is a list of comparators that a version has to meet one and all, or a star, which every release
meets. A pre-release is only let in by a comparator that names a pre-release of the same three numbers.
-/

namespace Graft.Version

inductive Relation where
  | exact
  | greater
  | greaterOrEqual
  | less
  | lessOrEqual
  | tilde
  | caret
  deriving DecidableEq, Inhabited

/-- A relation to a version of which the last numbers may be left open. -/
structure Comparator where
  relation : Relation
  major : Nat
  minor : Option Nat
  patch : Option Nat
  pre : List String
  deriving DecidableEq, Inhabited

structure Requirement where
  comparators : List Comparator
  deriving DecidableEq, Inhabited

/-! ## Reading -/

namespace Requirement

def dropSpaces (cs : List Char) : List Char := cs.dropWhile (· = ' ')

/-- The relation that a text begins with, if it names one. -/
def relation? : List Char → Option (Relation × List Char)
  | '=' :: rest => some (.exact, rest)
  | '>' :: '=' :: rest => some (.greaterOrEqual, rest)
  | '>' :: rest => some (.greater, rest)
  | '<' :: '=' :: rest => some (.lessOrEqual, rest)
  | '<' :: rest => some (.less, rest)
  | '~' :: rest => some (.tilde, rest)
  | '^' :: rest => some (.caret, rest)
  | _ => none

/-- The text after a wildcard. -/
def wildcard? : List Char → Option (List Char)
  | '*' :: rest => some rest
  | 'x' :: rest => some rest
  | 'X' :: rest => some rest
  | _ => none

/-- A number that may be left out, or left open by a wildcard. -/
inductive Part where
  | absent
  | wild
  | number (n : Nat)

def Part.value? : Part → Option Nat
  | .number n => some n
  | _ => none

def Part.isWild : Part → Bool
  | .wild => true
  | _ => false

/-- The part after a dot, if there is a dot. -/
def part? (cs : List Char) : Option (Part × List Char) :=
  match after? '.' cs with
  | none => some (.absent, cs)
  | some rest =>
    match wildcard? rest with
    | some rest => some (.wild, rest)
    | none => (number? rest).map fun (n, rest) => (.number n, rest)

/-- A comparator and the text after it. -/
def comparator? (cs : List Char) : Option (Comparator × List Char) := do
  let named := relation? cs
  let rest := dropSpaces ((named.map Prod.snd).getD cs)
  let (major, rest) ← number? rest
  let (minor, rest) ← part? rest
  let (patch, rest) ← part? rest
  if minor.isWild && patch.value?.isSome then none
  let complete := patch.value?.isSome
  let (pre, rest) ← if complete then optional? '-' prerelease? rest else some ([], rest)
  let (_, rest) ← if complete then optional? '+' buildData? rest else some ([], rest)
  let relation := match named with
    | some (r, _) => r
    | none => if minor.isWild || patch.isWild then .exact else .caret
  return (⟨relation, major, minor.value?, patch.value?, pre⟩, dropSpaces rest)

/-- At most `limit` comparators with commas between them. -/
def comparators? : Nat → List Char → Option (List Comparator)
  | 0, _ => none
  | limit + 1, cs => do
    let (c, rest) ← comparator? cs
    if rest.isEmpty then return [c]
    else
      let rest ← after? ',' rest
      return c :: (← comparators? limit (dropSpaces rest))

/-- The requirement that a whole text gives. -/
def read? (text : String) : Option Requirement :=
  let cs := dropSpaces text.toList
  match wildcard? cs with
  | some rest => if (dropSpaces rest).isEmpty then some ⟨[]⟩ else none
  | none => (comparators? 32 cs).map fun comparators => ⟨comparators⟩

end Requirement

/-! ## Meeting a requirement -/

namespace Comparator

def isExact (c : Comparator) (v : Version) : Bool :=
  v.major = c.major && c.minor.all (· = v.minor) && c.patch.all (· = v.patch) && v.pre = c.pre

/-- The order of a version and a comparator, where the comparator has a number for each that is needed. -/
def compareTo? (c : Comparator) (v : Version) : Option Ordering :=
  if v.major ≠ c.major then some (compare v.major c.major)
  else
    match c.minor with
    | none => none
    | some minor =>
      if v.minor ≠ minor then some (compare v.minor minor)
      else
        match c.patch with
        | none => none
        | some patch =>
          if v.patch ≠ patch then some (compare v.patch patch) else some (comparePre v.pre c.pre)

/-- Is a version at least the comparator in its pre-release? -/
def atLeastPre (c : Comparator) (v : Version) : Bool := comparePre v.pre c.pre ≠ .lt

def isTilde (c : Comparator) (v : Version) : Bool :=
  v.major = c.major && c.minor.all (· = v.minor) &&
    match c.patch with
    | some patch => if v.patch ≠ patch then patch < v.patch else c.atLeastPre v
    | none => c.atLeastPre v

/-- The first number that is not zero stays as it is. -/
def isCaret (c : Comparator) (v : Version) : Bool :=
  v.major = c.major &&
    match c.minor, c.patch with
    | none, _ => true
    | some minor, none => if 0 < c.major then minor ≤ v.minor else v.minor = minor
    | some minor, some patch =>
      if 0 < c.major then
        if v.minor ≠ minor then minor < v.minor else if v.patch ≠ patch then patch < v.patch else c.atLeastPre v
      else if 0 < minor then
        if v.minor ≠ minor then false else if v.patch ≠ patch then patch < v.patch else c.atLeastPre v
      else v.minor = minor && v.patch = patch && c.atLeastPre v

def accepts (c : Comparator) (v : Version) : Bool :=
  match c.relation with
  | .exact => c.isExact v
  | .greater => c.compareTo? v = some .gt
  | .greaterOrEqual => c.isExact v || c.compareTo? v = some .gt
  | .less => c.compareTo? v = some .lt
  | .lessOrEqual => c.isExact v || c.compareTo? v = some .lt
  | .tilde => c.isTilde v
  | .caret => c.isCaret v

/-- Does the comparator name a pre-release of these three numbers? -/
def admitsPre (c : Comparator) (v : Version) : Bool :=
  c.major = v.major && c.minor = some v.minor && c.patch = some v.patch && !c.pre.isEmpty

end Comparator

def Requirement.accepts (r : Requirement) (v : Version) : Bool :=
  r.comparators.all (·.accepts v) && (v.pre.isEmpty || r.comparators.any (·.admitsPre v))

/-! ## Checking texts -/

/-- A text that is no version or no requirement. -/
inductive Error where
  | version (text : String)
  | requirement (text : String)
  deriving DecidableEq, Inhabited

def Error.message : Error → String
  | .version text => "invalid version '" ++ text ++ "'"
  | .requirement text => "invalid version requirement '" ++ text ++ "'"

/-- Does a version meet a requirement, if there is one? A blank requirement is none. -/
def meets (version : String) (requirement : Option String) : Except Error Bool :=
  match requirement.map Unicode.trim with
  | none => .ok true
  | some text =>
    if text.isEmpty then .ok true
    else
      match Version.read? (String.ofList ((Unicode.trim version).toList.dropWhile (· = 'v'))) with
      | none => .error (.version version)
      | some v =>
        match Requirement.read? text with
        | none => .error (.requirement text)
        | some r => .ok (r.accepts v)

end Graft.Version
