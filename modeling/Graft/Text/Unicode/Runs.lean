/-!
# Tables written as runs

How the tables of character properties are read: hexadecimal numbers, runs with a label, and the points at
which membership in a set changes. A code point is in a set when an odd number of changes are at most it.
-/

namespace Graft.Unicode

def hexDigitValue (c : Char) : Nat := if c.isDigit then c.toNat - 48 else c.toNat - 87

/-- The number that hexadecimal digits denote. -/
def hexNumber (digits : List Char) : Nat := digits.foldl (fun n c => n * 16 + hexDigitValue c) 0

/-- The stretches of a text between the characters `separator`. -/
def fields (separator : Char) : List Char → List (List Char)
  | [] => [[]]
  | c :: rest =>
    match fields separator rest with
    | first :: more => if c = separator then [] :: first :: more else (c :: first) :: more
    | [] => [[c]]

/-- The words of a text. -/
def words (text : String) : List (List Char) := (fields ' ' text.toList).filter fun w => !w.isEmpty

/-! ## Stretches -/

/-- The end points of stretches that follow one another. -/
def sums : Nat → List Nat → List Nat
  | _, [] => []
  | start, n :: rest => (start + n) :: sums (start + n) rest

/-- The points where a set begins and ends, from the lengths of the stretches outside and inside it. -/
def stretchChanges (lines : List String) : List Nat := sums 0 ((words (String.join lines)).map hexNumber)

/-! ## Labelled runs -/

/-- A run: how many code points, and what they are. -/
structure Run where
  length : Nat
  label : String

/-- Reads runs, each a length and a label of `width` letters. -/
def labelledRunsFrom (width : Nat) : Nat → Nat → List Char → List Char → List Run
  | _, _, _, [] => []
  | length, 0, label, c :: rest =>
    if c.isUpper then labelledRunsFrom width length (width - 1) (c :: label) rest
    else labelledRunsFrom width (length * 16 + hexDigitValue c) 0 [] rest
  | length, 1, label, c :: rest =>
    ⟨length, String.ofList (c :: label).reverse⟩ :: labelledRunsFrom width 0 0 [] rest
  | length, left + 2, label, c :: rest => labelledRunsFrom width length (left + 1) (c :: label) rest

def labelledRuns (width : Nat) (lines : List String) : List Run :=
  labelledRunsFrom width 0 0 [] (String.join lines).toList

/-- The points at which a test on the label changes its answer. -/
def labelChangesFrom (test : String → Bool) (start : Nat) (inside : Bool) : List Run → List Nat
  | [] => if inside then [start] else []
  | run :: rest =>
    let now := test run.label
    let changes := labelChangesFrom test (start + run.length) now rest
    if now = inside then changes else start :: changes

def labelChanges (test : String → Bool) (runs : List Run) : List Nat := labelChangesFrom test 0 false runs

/-! ## Classes -/

/-- Classes of code points, each a distance and the steps between its members. -/
def classesFrom : Nat → List (List Char) → List (List Nat)
  | _, [] => []
  | start, word :: rest =>
    match sums start ((fields '+' word).map hexNumber) with
    | first :: more => (first :: more) :: classesFrom first rest
    | [] => classesFrom start rest

end Graft.Unicode
