import Graft.Source.Await
/-!
# Expressions

Binary operators climb by level; assignments, arrows and `yield` start at any operand and reach as far to the right as
they can.
-/

namespace Graft.Source

open Read

variable (read : Readers) (fuel : Nat)

/-! ## Unary operators -/

/-- The operators that stand before one operand. -/
def unaryOperator? : Token → Option String
  | .word w => if ["typeof", "void", "delete"].contains w then some w else none
  | .punct p => if ["!", "~", "-", "+"].contains p then some p else none
  | _ => none

/-- `++` or `--` before its operand. -/
def prefixUpdate (mode : Mode) (operator : String) : Read Reading := do
  let start ← textAhead
  advance
  markupAhead
  let t ← peek
  let nested : Bool := match t with
    | .privateName _ => true
    | t => (unaryOperator? t).isSome || isUpdate t || [.word "await", .word "yield"].contains t
  let plain : Read Reading := do assigned read mode.behind (← operand read fuel mode false)
  let waiting : Read Reading := do
    let r ← read (.unary mode.behind)
    match t, r.expression with
    | .word "await", some (.mk (.awaitExpression _)) => return r
    | .word "await", _ => failure
    | _, _ => return r
  let r ← if nested then waiting <|> plain else plain
  let e ← require r.closed?
  suffixes read fuel mode start true true fuel (.ofExpression (.mk (.updateExpression operator true e)) .other)

def unary (mode : Mode) : Read Reading := do
  match ← peek with
  | .punct "++" => assigned read mode (← prefixUpdate read fuel mode "++")
  | .punct "--" => assigned read mode (← prefixUpdate read fuel mode "--")
  | .word "await" => assigned read mode (← awaited read fuel mode)
  | .word "yield" => assigned read mode (← yielded read fuel mode)
  | .privateName name =>
    advance
    markupAhead
    word "in"
    let right ← require (← read (.operation mode.behind 9)).closed?
    return .ofExpression (.mk (.binaryExpression "in" (.mk (.privateIdentifier name)) right)) .other
  | t =>
    match unaryOperator? t with
    | some operator =>
      advance
      let e ← require (← read (.unary mode.behind)).closed?
      return .ofExpression (.mk (.unaryExpression operator e)) .other
    | none => assigned read mode (← operand read fuel mode true)

/-! ## Binary operators -/

/-- The level of a binary operator, from `??` on up. -/
def operatorLevel? (mode : Mode) : Token → Option (String × Nat)
  | .word w =>
    if w = "instanceof" || (w = "in" && !mode.noIn) then some (w, 8) else none
  | .punct p =>
    let level := match p with
      | "??" => 1
      | "||" => 2
      | "&&" => 3
      | "|" => 4
      | "^" => 5
      | "&" => 6
      | "==" | "!=" | "===" | "!==" => 7
      | "<" | ">" | "<=" | ">=" => 8
      | "<<" | ">>" | ">>>" => 9
      | "+" | "-" => 10
      | "*" | "/" | "%" => 11
      | "**" => 12
      | _ => 0
    if level = 0 then none else some (p, level)
  | _ => none

def operationTree (operator : String) (left right : Tree) : Tree :=
  if ["&&", "||", "??"].contains operator then .mk (.logicalExpression operator left right)
  else .mk (.binaryExpression operator left right)

/-- Is this a bare unary operation? -/
def isSigned (r : Reading) : Bool :=
  match r.expression with
  | some (.mk (.unaryExpression ..)) | some (.mk (.updateExpression ..)) => r.kind = .other
  | _ => false

/-! ## `await` as a name near the end of the text

Where `await` could be a name as well, what is read to the very end of the text takes the shape that begins with an
operation rather than with a bare unary operation, and otherwise the one in which a product comes last. -/

/-- Passes the operators that stand before an operand. -/
def passPrefixes : Nat → Read Unit
  | 0 => failure
  | n + 1 => do
    let t ← peek
    if (unaryOperator? t).isSome || isUpdate t then
      advance
      passPrefixes n

/-- Is this a product, or with `powers` a power? -/
def isProduct (powers : Bool) (r : Reading) : Bool :=
  match r.expression with
  | some (.mk (.binaryExpression operator _ _)) => r.kind = .other && (powers || operator ≠ "**")
  | _ => false

/-- Behind prefix operators and the word `await`, passes a sign and all that it belongs to, which has to be the end of the
text. `signed` says that the operation begins with a bare unary operation; if it does not, a product must come last. The
operation begins here if `first` says so, and then a power will do as well. -/
def passLastSum (signed first : Bool) (mode : Mode) : Read Unit := do
  passPrefixes fuel
  word "await"
  let updated := isUpdate (← peek)
  if updated then advance
  guardThat (← isSign)
  let plain ← noComment
  advance
  let last ← read (.operation { mode.behind with ends := false } 11)
  guardThat (nothingLeft (← get) && if isProduct first last then plain && !updated else signed && (first || plain))

/-- Behind prefix operators and the word `await`, passes a regular expression with all that belongs to it, or a sum that
begins with one. That has to be the end of the text, unless a question mark touches the closing slash. -/
def passLastRegex (mode : Mode) : Read Unit := do
  passPrefixes fuel
  word "await"
  guardThat (← isPunct "/")
  let s ← get
  let bare : Bool := match (← regex mode).expression with
    | some (.mk (.literal (.regex _ flags) _)) => flags = ""
    | _ => false
  let asks : Bool := match (← get).previous with
    | '?' :: rest => bare && mode.ends && loneQuestion rest
    | _ => false
  if !asks then
    if bare && (← isSign) then
      advance
      let _ ← read (.operation { mode.behind with ends := false } 11)
    else
      set s
      let _ ← read (.operation { mode.behind with ends := false } 12)
    guardThat (nothingLeft (← get))

/-- An operand in which `await` is a name, and the rest of the operation as `more` reads it, which goes on at least as far as
what `pass` passes. -/
def namedOperation (mode : Mode) (pass : Read Unit) (more : Reading → Read Reading) : Read Reading := do
  guardThat mode.ends
  let s ← get
  pass
  let end_ ← get
  set s
  let r ← more (← unary read fuel { mode with role := .named })
  guardThat ((← get).rest.length ≤ end_.rest.length)
  return r

/-- Operators of level `least` or more that follow a left operand. A conditional binds like `??`. `signed` says that the
first operand is a bare unary operation: in a sum that begins so, `await` before a sign is a name. -/
def operationRest (mode : Mode) (least : Nat) (signed : Bool) : Nat → Reading → Read Reading
  | 0, _ => failure
  | n + 1, left => do
    if ← mode.stops then return left
    match left.closed? with
    | none => return left
    | some l =>
      match ← mode.questionAhead?, operatorLevel? mode (← peek) with
      | some rest, _ =>
        if least ≤ 1 then
          set (State.ofText true rest)
          let yes ← expressionTree read .branch
          punct ":"
          let no ← expressionTree read mode.behind
          return .ofExpression (.mk (.conditionalExpression l yes no)) .other
        else return left
      | none, some (operator, level) =>
        if level < least then return left
        else
          advance
          let more (right : Reading) : Read Reading := do
            let r ← require right.closed?
            operationRest mode least signed n (.ofExpression (operationTree operator l r) .other)
          let plain : Read Reading := do
            let role := if signed && level = 10 then .summand else mode.behind.role
            more (← read (.operation { mode with role := role } (if operator = "**" then level else level + 1)))
          if level < 11 then plain
          else
            namedOperation read fuel mode.behind (passLastSum read fuel signed false mode) more <|> (do
              guardThat signed
              namedOperation read fuel mode.behind (passLastRegex read fuel mode) more) <|> plain
      | none, none => return left

def operation (mode : Mode) (least : Nat) : Read Reading := do
  let signed := (unaryOperator? (← peek)).isSome || isUpdate (← peek)
  let named (least' : Nat) (pass : Read Unit) : Read Reading := do
    guardThat (least ≤ least')
    namedOperation read fuel mode pass fun first => operationRest read fuel mode least signed fuel first
  let plain : Read Reading := do
    let first ← unary read fuel mode
    operationRest read fuel mode least (isSigned first) fuel first
  named 10 (passLastSum read fuel signed true mode) <|> (do
    guardThat signed
    named 11 (passLastRegex read fuel mode)) <|> plain

end Graft.Source
