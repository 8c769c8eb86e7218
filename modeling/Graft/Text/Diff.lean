import Std.Data.HashMap
/-!
# Differences between texts

Two texts are compared line by line. A shortest script of kept, deleted and inserted lines is found from both ends at
once: the points that can be reached with ever more edits grow from the start and from the end until they meet, and
the parts before and after the meeting point are compared in turn. Insertions are then moved down as far as the lines
allow, and the changes are shown with three kept lines around them.
-/

namespace Graft.Diff

/-! ## Lines -/

/-- The lines with their ends: a line feed, a carriage return, or one after the other. `line` is the line so far,
from its end. -/
def splitLines (line : List Char) : List Char → List (List Char)
  | [] => if line.isEmpty then [] else [line.reverse]
  | '\r' :: '\n' :: rest => ('\n' :: '\r' :: line).reverse :: splitLines [] rest
  | c :: rest =>
    if c = '\n' || c = '\r' then (c :: line).reverse :: splitLines [] rest else splitLines (c :: line) rest

def lines (text : String) : List String := (splitLines [] text.toList).map String.ofList

def endsLine (line : String) : Bool := line.toList.getLast?.any fun c => c = '\n' || c = '\r'

/-! ## Scripts -/

/-- Lines that both texts have, or that only the old or the new one has. -/
inductive Edit where
  | keep (lines : List String)
  | delete (lines : List String)
  | insert (lines : List String)
  deriving DecidableEq, Inhabited

/-- A part of the old and a part of the new text. -/
structure Window where
  oldStart : Nat
  oldStop : Nat
  newStart : Nat
  newStop : Nat

namespace Window

def oldSize (w : Window) : Nat := w.oldStop - w.oldStart

def newSize (w : Window) : Nat := w.newStop - w.newStart

end Window

/-- How many lines agree from two places on, at most `limit`. -/
def agreeFrom (old new : Array String) : Nat → Nat → Nat → Nat
  | 0, _, _ => 0
  | limit + 1, i, j => if old[i]? == new[j]? then agreeFrom old new limit (i + 1) (j + 1) + 1 else 0

/-- How many lines agree before two places, at most `limit`. -/
def agreeBefore (old new : Array String) : Nat → Nat → Nat → Nat
  | 0, _, _ => 0
  | limit + 1, i, j =>
    if old[i - 1]? == new[j - 1]? then agreeBefore old new limit (i - 1) (j - 1) + 1 else 0

/-- For each diagonal the number of old lines passed on the way that gets furthest. -/
abbrev Reach := Std.HashMap Int Nat

def Reach.on (r : Reach) (diagonal : Int) : Nat := r.getD diagonal 0

/-- One edit more on a diagonal: a new line passed over, or an old one. -/
def Reach.next (r : Reach) (edits : Nat) (k : Int) : Nat :=
  if k = -(edits : Int) || (k ≠ edits && r.on (k - 1) < r.on (k + 1)) then r.on (k + 1) else r.on (k - 1) + 1

/-- Diagonals from the uppermost to the lowermost that a number of edits reaches. -/
def diagonals (edits : Nat) : List Int := (List.range (edits + 1)).map fun (i : Nat) => (edits : Int) - 2 * i

/-- Goes on along diagonals up to the first where the ways from both ends meet: its diagonal, and how far it was on it
before and after the lines that agree. -/
def sweep (agree : Nat → Nat → Nat) (meets : Int → Nat → Bool) (edits : Nat) :
    List Int → Reach → Reach × Option (Int × Nat × Nat)
  | [], r => (r, none)
  | k :: rest, r =>
    let start := r.next edits k
    let stop := start + agree start (start - k).toNat
    let r := r.insert k stop
    if meets k stop then (r, some (k, start, stop)) else sweep agree meets edits rest r

/-- The place inside a window where the ways from its two ends meet, counted from its start. -/
def meetingPoint (old new : Array String) (w : Window) : Nat → Nat → Reach → Reach → Option (Nat × Nat)
  | 0, _, _, _ => none
  | fuel + 1, edits, down, up =>
    let n := w.oldSize
    let m := w.newSize
    let delta : Int := n - m
    let odd := delta % 2 ≠ 0
    let ahead (x y : Nat) : Nat := agreeFrom old new (min (n - x) (m - y)) (w.oldStart + x) (w.newStart + y)
    let behind (x y : Nat) : Nat := agreeBefore old new (min (n - x) (m - y)) (w.oldStop - x) (w.newStop - y)
    let metUp (k : Int) (x : Nat) : Bool := odd && (k - delta).natAbs < edits && n ≤ x + up.on (delta - k)
    match sweep ahead metUp edits (diagonals edits) down with
    | (_, some (k, start, _)) => some (start, (start - k).toNat)
    | (down, none) =>
      let metDown (k : Int) (x : Nat) : Bool := !odd && (k - delta).natAbs ≤ edits && n ≤ x + down.on (delta - k)
      match sweep behind metDown edits (diagonals edits) up with
      | (_, some (k, _, stop)) => some (n - stop, m - (stop - k).toNat)
      | (up, none) => meetingPoint old new w fuel (edits + 1) down up

def slice (lines : Array String) (start stop : Nat) : List String := (lines.extract start stop).toList

/-- An edit, unless it has no lines. -/
def some? (edit : List String → Edit) (lines : List String) : List Edit := if lines.isEmpty then [] else [edit lines]

/-- A script for a window. -/
def script (old new : Array String) : Nat → Window → List Edit
  | 0, w => [.delete (slice old w.oldStart w.oldStop), .insert (slice new w.newStart w.newStop)]
  | fuel + 1, w =>
    let before := agreeFrom old new (min w.oldSize w.newSize) w.oldStart w.newStart
    let rest : Window := { w with oldStart := w.oldStart + before, newStart := w.newStart + before }
    let after := agreeBefore old new (min rest.oldSize rest.newSize) rest.oldStop rest.newStop
    let inner : Window := { rest with oldStop := rest.oldStop - after, newStop := rest.newStop - after }
    let deleted := slice old inner.oldStart inner.oldStop
    let inserted := slice new inner.newStart inner.newStop
    let changed :=
      if deleted.isEmpty || inserted.isEmpty then some? .delete deleted ++ some? .insert inserted
      else
        match meetingPoint old new inner ((inner.oldSize + inner.newSize + 1) / 2 + 1) 0 ∅ ∅ with
        | some (x, y) =>
          let i := inner.oldStart + x
          let j := inner.newStart + y
          script old new fuel { inner with oldStop := i, newStop := j }
            ++ script old new fuel { inner with oldStart := i, newStart := j }
        | none => [.delete deleted, .insert inserted]
    some? .keep (slice old w.oldStart rest.oldStart) ++ changed ++ some? .keep (slice old inner.oldStop w.oldStop)

/-! ## Moving changes -/

/-- A change inside a script; the edits before it stand nearest first. -/
structure Focus where
  before : List Edit
  this : Edit
  after : List Edit

/-- Adds kept lines at the start of what follows. -/
def keepFirst (lines : List String) : List Edit → List Edit
  | .keep more :: rest => .keep (lines ++ more) :: rest
  | edits => .keep lines :: edits

/-- Adds kept lines at the end of what comes before. -/
def keepLast (lines : List String) : List Edit → List Edit
  | .keep more :: rest => .keep (more ++ lines) :: rest
  | edits => .keep lines :: edits

def commonFront : List String → List String → Nat
  | a :: as, b :: bs => if a = b then commonFront as bs + 1 else 0
  | _, _ => 0

def lastOnes (count : Nat) (lines : List String) : List String := lines.drop (lines.length - count)

def butLast (count : Nat) (lines : List String) : List String := lines.take (lines.length - count)

/-- Moves a change up: past other changes, into changes of its kind, and an insertion past kept lines that it could
as well have inserted. -/
def moveUp : Nat → Focus → Focus
  | 0, f => f
  | fuel + 1, f =>
    match f.this, f.before with
    | .insert new, .keep kept :: before =>
      let count := commonFront kept.reverse new.reverse
      if count = 0 then f
      else
        let moved := lastOnes count kept
        moveUp fuel {
          before := some? .keep (butLast count kept) ++ before
          this := .insert (moved ++ butLast count new)
          after := keepFirst moved f.after }
    | .insert new, .delete old :: before =>
      moveUp fuel { before := before, this := .insert new, after := .delete old :: f.after }
    | .delete old, .insert new :: before =>
      moveUp fuel { before := before, this := .delete old, after := .insert new :: f.after }
    | .insert new, .insert more :: before => moveUp fuel { f with before := before, this := .insert (more ++ new) }
    | .delete old, .delete more :: before => moveUp fuel { f with before := before, this := .delete (more ++ old) }
    | _, _ => f

/-- Moves a change down in the same way. -/
def moveDown : Nat → Focus → Focus
  | 0, f => f
  | fuel + 1, f =>
    match f.this, f.after with
    | .insert new, .keep kept :: after =>
      let count := commonFront kept new
      if count = 0 then f
      else
        let moved := kept.take count
        moveDown fuel {
          before := keepLast moved f.before
          this := .insert (new.drop count ++ moved)
          after := some? .keep (kept.drop count) ++ after }
    | .insert new, .delete old :: after =>
      moveDown fuel { before := .delete old :: f.before, this := .insert new, after := after }
    | .delete old, .insert new :: after =>
      moveDown fuel { before := .insert new :: f.before, this := .delete old, after := after }
    | .insert new, .insert more :: after => moveDown fuel { f with this := .insert (new ++ more), after := after }
    | .delete old, .delete more :: after => moveDown fuel { f with this := .delete (old ++ more), after := after }
    | _, _ => f

/-- Moves every change of a kind, first up and then down. `size` bounds the edits and lines of the script. -/
def moveAll (size : Nat) (isKind : Edit → Bool) : Nat → List Edit → List Edit → List Edit
  | 0, before, after => before.reverse ++ after
  | _ + 1, before, [] => before.reverse
  | fuel + 1, before, e :: after =>
    if isKind e then
      let f := moveDown size (moveUp size { before := before, this := e, after := after })
      moveAll size isKind fuel (f.this :: f.before) f.after
    else moveAll size isKind fuel (e :: before) after

def isDelete : Edit → Bool
  | .delete _ => true
  | _ => false

def isInsert : Edit → Bool
  | .insert _ => true
  | _ => false

/-- Moves all deletions, then all insertions. -/
def settle (edits : List Edit) : List Edit :=
  let size := edits.foldl (fun n e => n + 1 + match e with
    | .keep lines => lines.length
    | .delete lines => lines.length
    | .insert lines => lines.length) 1
  moveAll size isInsert (size * size) [] (moveAll size isDelete (size * size) [] edits)

/-! ## Blocks -/

/-- Kept lines, or deleted lines with the lines that come in their place. -/
inductive Block where
  | keep (lines : List String)
  | change (deleted inserted : List String)
  deriving DecidableEq, Inhabited

/-- Adds an edit in front of blocks. -/
def addEdit (e : Edit) (blocks : List Block) : List Block :=
  match e, blocks with
  | .keep lines, .keep more :: rest => .keep (lines ++ more) :: rest
  | .keep lines, rest => .keep lines :: rest
  | .delete lines, .change deleted inserted :: rest => .change (lines ++ deleted) inserted :: rest
  | .delete lines, rest => .change lines [] :: rest
  | .insert lines, .change deleted inserted :: rest => .change deleted (lines ++ inserted) :: rest
  | .insert lines, rest => .change [] lines :: rest

def blocks (old new : String) : List Block :=
  let a := (lines old).toArray
  let b := (lines new).toArray
  (settle (script a b (a.size + b.size + 1) ⟨0, a.size, 0, b.size⟩)).foldr addEdit []

/-! ## Showing changes -/

/-- How many kept lines are shown next to a change. -/
def context : Nat := 3

/-- A line after its sign. A line without an end gets one, and an empty line after it. -/
def showLine (sign : Char) (line : String) : String :=
  String.singleton sign ++ line ++ if endsLine line then "" else "\n\n"

def showLines (sign : Char) (lines : List String) : String := String.join (lines.map (showLine sign))

/-- The changes with the kept lines next to them. -/
def showBlocks (atStart : Bool) : List Block → String
  | [] => ""
  | [.keep kept] => if atStart then "" else showLines ' ' (kept.take context)
  | .keep kept :: rest =>
    let shown :=
      if atStart then lastOnes context kept
      else if 2 * context < kept.length then kept.take context ++ lastOnes context kept
      else kept
    showLines ' ' shown ++ showBlocks false rest
  | .change deleted inserted :: rest => showLines '-' deleted ++ showLines '+' inserted ++ showBlocks false rest

/-- What changes from an old text to a new one. -/
def render (old new : String) : String := showBlocks true (blocks old new)

end Graft.Diff
