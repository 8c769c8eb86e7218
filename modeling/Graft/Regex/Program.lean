import Graft.Regex.Expr
import Std.Data.HashSet
/-!
# Matching

An expression is compiled to a program of small steps. A search tries the alternatives of a program in order
of preference, from the leftmost position on, and comes to each pair of a step and a position once at most:
what failed there once fails again.
-/

namespace Graft.Regex

inductive Step where
  | chars (set : CharSet) (next : Nat)
  | look (look : Look) (next : Nat)
  | save (slot : Nat) (next : Nat)
  | split (first second : Nat)
  | accept
  deriving Inhabited

abbrev Program := Array Step

namespace Program

/-! ## Compiling

Each function puts steps for an expression in front of those from `next` on, and gives the place where they begin. -/

def push (p : Program) (s : Step) : Nat × Program := (p.size, Array.push p s)

/-- A choice between a body and what follows; the body comes first if it is greedy. -/
def fork (greedy : Bool) (body next : Nat) : Step := if greedy then .split body next else .split next body

/-- The body up to `count` times. -/
def upTo (compile : Nat → Program → Nat × Program) (greedy : Bool) (next : Nat) : Nat → Nat × Program → Nat × Program
  | 0, r => r
  | count + 1, (entry, p) =>
    let (body, p) := compile entry p
    upTo compile greedy next count (p.push (fork greedy body next))

/-- The body exactly `count` times. -/
def exactly (compile : Nat → Program → Nat × Program) : Nat → Nat × Program → Nat × Program
  | 0, r => r
  | count + 1, (entry, p) => exactly compile count (compile entry p)

/-- The body once or more. -/
def onceOrMore (compile : Nat → Program → Nat × Program) (greedy : Bool) (next : Nat) (p : Program) : Nat × Program :=
  let (loop, p) := p.push .accept
  let (body, p) := compile loop p
  (body, p.setIfInBounds loop (fork greedy body next))

/-- The body any number of times. -/
def anyNumber (compile : Nat → Program → Nat × Program) (nullable greedy : Bool) (next : Nat) (p : Program) :
    Nat × Program :=
  if nullable then
    let (body, p) := onceOrMore compile greedy next p
    p.push (fork greedy body next)
  else
    let (loop, p) := p.push .accept
    let (body, p) := compile loop p
    (loop, p.setIfInBounds loop (fork greedy body next))

def compile : Expr → Nat → Program → Nat × Program
  | .empty, next, p => (next, p)
  | .chars set, next, p => p.push (.chars set next)
  | .look l, next, p => p.push (.look l next)
  | .capture index body, next, p =>
    let (stop, p) := p.push (.save (2 * index + 1) next)
    let (entry, p) := compile body stop p
    p.push (.save (2 * index) entry)
  | .times 0 none greedy body, next, p => anyNumber (compile body) body.nullable greedy next p
  | .times (least + 1) none greedy body, next, p =>
    exactly (compile body) least (onceOrMore (compile body) greedy next p)
  | .times least (some most) greedy body, next, p =>
    exactly (compile body) least (upTo (compile body) greedy next (most - least) (next, p))
  | .sequence first second, next, p =>
    let (entry, p) := compile second next p
    compile first entry p
  | .choice first second, next, p =>
    let (a, p) := compile first next p
    let (b, p) := compile second next p
    p.push (.split a b)

/-! ## Positions -/

def isAsciiWord (c : Char) : Bool := c.isAlphanum || c = '_'

def Look.holds (l : Look) (text : Array Char) (at' : Nat) : Bool :=
  let before := if at' = 0 then none else text[at' - 1]?
  let after := text[at']?
  match l with
  | .textStart => before.isNone
  | .textEnd => after.isNone
  | .lineStart false => before.isNone || before = some '\n'
  | .lineEnd false => after.isNone || after = some '\n'
  | .lineStart true => before.isNone || before = some '\n' || (before = some '\r' && after ≠ some '\n')
  | .lineEnd true => after.isNone || after = some '\r' || (after = some '\n' && before ≠ some '\r')
  | .word unicode boundary =>
    let inWord (c : Option Char) : Bool :=
      match c with
      | some c => if unicode then Unicode.isWord c else isAsciiWord c
      | none => false
    match boundary with
    | .either => inWord before != inWord after
    | .neither => inWord before == inWord after
    | .start => !inWord before && inWord after
    | .end => inWord before && !inWord after
    | .startHalf => !inWord before
    | .endHalf => !inWord after

/-! ## Searching -/

/-- A way to go on: the step to take, the position, and the slots saved on the way there, the last first. -/
structure Thread where
  step : Nat
  position : Nat
  slots : List (Nat × Nat)

/-- Where a thread can go, the preferred way first. -/
def successors (p : Program) (text : Array Char) (t : Thread) : List Thread :=
  match p.getD t.step .accept with
  | .chars set next =>
    match text[t.position]? with
    | some c => if set.contains c then [{ t with step := next, position := t.position + 1 }] else []
    | none => []
  | .look l next => if Look.holds l text t.position then [{ t with step := next }] else []
  | .save slot next => [{ t with step := next, slots := (slot, t.position) :: t.slots }]
  | .split first second => [{ t with step := first }, { t with step := second }]
  | .accept => []

/-- Is this where a match ends? -/
def accepts (p : Program) (t : Thread) : Bool :=
  match p.getD t.step .accept with
  | .accept => true
  | _ => false

abbrev Visited := Std.HashSet Nat

/-- Follows threads in order of preference until one ends in a match. -/
def explore (p : Program) (text : Array Char) : Nat → List Thread → Visited → Option Thread × Visited
  | 0, _, visited => (none, visited)
  | _ + 1, [], visited => (none, visited)
  | fuel + 1, t :: threads, visited =>
    let pair := t.position * p.size + t.step
    if visited.contains pair then explore p text fuel threads visited
    else if accepts p t then (some t, visited)
    else explore p text fuel (successors p text t ++ threads) (visited.insert pair)

/-- A match: where it starts and ends, and the slots of its groups. -/
structure Match where
  start : Nat
  stop : Nat
  slots : List (Nat × Nat)

/-- Steps enough to come to every pair of a step and a position. -/
def patience (p : Program) (text : Array Char) : Nat := 2 * (p.size * (text.size + 1)) + 2

/-- The leftmost match that starts within `count` positions from `position` on. -/
def searchFrom (p : Program) (entry : Nat) (text : Array Char) : Nat → Nat → Visited → Option Match
  | 0, _, _ => none
  | count + 1, position, visited =>
    match explore p text (patience p text) [⟨entry, position, []⟩] visited with
    | (some t, _) => some ⟨position, t.position, t.slots⟩
    | (none, visited) => searchFrom p entry text count (position + 1) visited

end Program
end Graft.Regex
