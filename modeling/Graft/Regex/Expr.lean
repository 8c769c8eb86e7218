import Graft.Number.Power
import Graft.Regex.CharSet
/-!
# Regular expressions

An `Expr` is a pattern whose flags have been worked in: every character is a set, every anchor says what
it looks at, and of two alternatives the first is preferred.
-/

namespace Graft.Regex

/-- Which side of a position has to be in a word. -/
inductive Boundary where
  | either
  | neither
  | start
  | «end»
  | startHalf
  | endHalf
  deriving DecidableEq, Inhabited

/-- A condition on a position. -/
inductive Look where
  | textStart
  | textEnd
  | lineStart (carriageReturns : Bool)
  | lineEnd (carriageReturns : Bool)
  | word (unicode : Bool) (boundary : Boundary)
  deriving DecidableEq, Inhabited

inductive Expr where
  | empty
  | chars (set : CharSet)
  | look (look : Look)
  | capture (index : Nat) (body : Expr)
  | times (least : Nat) (most : Option Nat) (greedy : Bool) (body : Expr)
  | sequence (first second : Expr)
  | choice (first second : Expr)
  deriving Inhabited

namespace Expr

/-- Can the expression match without taking a character? -/
def nullable : Expr → Bool
  | .empty => true
  | .chars _ => false
  | .look _ => true
  | .capture _ body => body.nullable
  | .times least _ _ body => least = 0 || body.nullable
  | .sequence first second => first.nullable && second.nullable
  | .choice first second => first.nullable || second.nullable

/-- Can the expression take a character? -/
def consumes : Expr → Bool
  | .empty => false
  | .chars _ => true
  | .look _ => false
  | .capture _ body => body.consumes
  | .times _ most _ body => most ≠ some 0 && body.consumes
  | .sequence first second => first.consumes || second.consumes
  | .choice first second => first.consumes || second.consumes

/-- A repetition. What takes no character is repeated once at most. -/
def ofTimes (least : Nat) (most : Option Nat) (greedy : Bool) (body : Expr) : Expr :=
  if body.consumes then
    if most = some 0 then .empty else if least = 1 && most = some 1 then body else .times least most greedy body
  else
    let most := min (most.getD 1) 1
    if most = 0 then .empty else if least = 0 then .times 0 (some 1) greedy body else body

/-! ## Size -/

/-- The room that a set takes in a compiled expression, in bytes. -/
def setSize (set : CharSet) : Nat := if set.isAscii then 32 + 8 * set.stretches else 300 + 60 * set.stretches

/-- The room that an expression takes when it is compiled, in bytes. -/
def size : Expr → Nat
  | .empty => 32
  | .chars set => setSize set
  | .look _ => 32
  | .capture _ body => body.size + 64
  | .times least none _ body => max least 1 * body.size + 40
  | .times least (some most) _ body => least * body.size + (most - least) * (body.size + 40)
  | .sequence first second => first.size + second.size
  | .choice first second => first.size + second.size + 40

/-- Larger expressions are refused. -/
def sizeLimit : Nat := 10 * twoTo 20

end Expr
end Graft.Regex
