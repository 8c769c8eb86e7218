import Graft.Source.Member
/-!
# Operands

What an operator can stand beside: literals, names, parentheses, and the chains of accesses and calls that begin with
them. Constructs that the tree does not break down (template literals, markup, BigInts, meta properties) are kept as their
source text.
-/

namespace Graft.Source

open Read

variable (read : Readers) (fuel : Nat)

/-! ## Members and calls -/

/-- The name after a dot. -/
def memberName : Read Tree := do
  let s ← get
  resume s.rest
  match s.token with
  | .word w => return identifierTree w
  | .privateName name => return .mk (.privateIdentifier name)
  | _ => failure

def indexed (object : Tree) (optional : Bool) : Read Reading := do
  punct "["
  let i ← expressions read fuel .inner
  punct "]"
  return .ofReference (.mk (.memberExpression object i true optional))

def called (callee : Tree) (optional : Bool) : Read Reading := do
  let args ← arguments read fuel
  return .ofExpression (.mk (.callExpression callee args optional)) .primary

/-! ## Operands -/

def isFlag (c : Char) : Bool := 'a' ≤ c && c ≤ 'z'

/-- The text from the flags of a regular expression on. They may follow a comment, if the statement does not end before
it. The first text, which is the second or longer, bounds the steps. -/
def flagsAhead? (mode : Mode) : List Char → List Char → Option (List Char)
  | [], _ => none
  | _ :: bound, cs =>
    if (cs.head?.map isFlag).getD false then some cs
    else if mode.ends && endsHere false cs cs then none
    else (dropComment cs).bind (flagsAhead? mode bound)

/-- The text from the pattern of a regular expression on, comments in front of it passed. -/
def patternAhead : List Char → List Char → List Char
  | [], cs => cs
  | _ :: bound, cs =>
    match dropComment cs with
    | some rest => patternAhead bound rest
    | none => cs

/-- The text after the slash that closes a regular expression. It may follow a comment, and then stands right behind it. -/
def closingAhead? : List Char → List Char → Option (List Char)
  | [], _ => none
  | _, '/' :: rest => some rest
  | _ :: bound, cs => (dropComment cs).bind (closingAhead? bound)

def regex (mode : Mode) : Read Reading := do
  let start ← textAhead
  let body := patternAhead start (start.drop 1)
  let n ← require (patternLength? false 0 body)
  let after ← require (closingAhead? body (body.drop n))
  let flagged := (flagsAhead? mode after after).getD after
  let flags := flagged.takeWhile isFlag
  resume (flagged.drop flags.length)
  let value := LiteralValue.regex (String.ofList (body.take n)) (String.ofList flags)
  return .ofExpression (.mk (.literal value (← sourceFrom start))) .primary

/-- Expressions in parentheses, or the parameters of an arrow. -/
def parenthesized (mode : Mode) : Read Reading := do
  punct "("
  let (items, trailing) ← itemsUntil read .element .inner ")" fuel false []
  let es := (items.mapM fun (i : Option Item) => i.bind Item.value?).getD []
  if trailing || es.isEmpty then markupAhead
  if ← isPunct "=>" then
    let params ← require (parametersOf items)
    arrowRest read fuel mode false params
  else
    guardThat !trailing
    match es with
    | [] => failure
    | [e] => return .ofParenthesized e
    | es => return .ofParenthesized (.mk (.sequenceExpression es))

/-- After the word `async`: a function, an arrow, or the word as a name. `calls` says whether a call of it may follow, the first
argument of which could be a parameter. -/
def async (mode : Mode) (calls : Bool) : Read Reading := do
  advance
  let name := identifierTree "async"
  if ← mode.stops then return .ofReference name
  else
    match ← peek with
    | .word "function" =>
      let f ← functionRest read fuel true false false
      return .ofExpression (.mk (.functionExpression f)) .primary
    | .word w =>
      let next ← second
      let isOf := w = "of" && (next.token ≠ .punct "=>" || (mode.takesOf && mode.role ≠ .statement))
      if (isReserved w && w ≠ "export") || isOf then return .ofReference name
      else
        advance
        markupAhead
        arrowRest read fuel mode true [identifierTree w]
    | .punct "(" =>
      let s ← get
      advance
      let (items, _) ← itemsUntil read .binding .inner ")" fuel false []
      if items.isEmpty then markupAhead
      if ← isPunct "=>" then arrowRest read fuel mode true (← require (parametersOf items))
      else if calls then
        return .ofExpression (.mk (.callExpression name (← require (argumentsOf items)) false)) .primary
      else
        set s
        return .ofReference name
    | .punct "=>" => arrowRest read fuel mode false [name]
    | _ => return .ofReference name

/-- A name, or the parameter of an arrow. -/
def nameOperand (mode : Mode) (name : String) : Read Reading := do
  advance
  let r := Reading.ofReference (identifierTree name)
  if name = "undefined" then return { r with simple := false }
  else if !(← mode.stops) && (← isPunct "=>") then arrowRest read fuel mode false [identifierTree name]
  else return r

def wordOperand (mode : Mode) (calls : Bool) (w : String) : Read Reading := do
  let literal (value : LiteralValue) : Read Reading := do
    advance
    return .ofExpression (.mk (.literal value w)) .primary
  match w with
  | "this" => advance; return .ofExpression (.mk .thisExpression) .primary
  | "super" => advance; return .ofExpression (.mk .super) .primary
  | "true" => literal (.boolean true)
  | "false" => literal (.boolean false)
  | "null" => literal .null
  | "function" =>
    let f ← functionRest read fuel false false false
    return .ofExpression (.mk (.functionExpression f)) .primary
  | "class" => return .ofExpression (.mk (.classExpression (← classRest read fuel false))) .primary
  | "async" => async read fuel mode calls
  | "import" =>
    let start ← textAhead
    advance
    if (← isPunct ".") && (← second).token = .word "meta" then
      advance
      advance
      return .ofExpression (.mk (.verbatim (← sourceFrom start))) .primary
    else if ← punct? "?." then
      return .ofReference (.mk (.memberExpression (.mk (.verbatim "import")) (← memberName) false true))
    else called read fuel (.mk (.verbatim "import")) false
  | w =>
    guardThat ((!(isReserved w) && w ≠ "yield") || w = "export")
    nameOperand read fuel mode w

/-- An operand without what follows it. `calls` says whether a call may follow. -/
def primary (mode : Mode) (calls : Bool) : Read Reading := do
  let start ← textAhead
  match ← peek with
  | .word w => wordOperand read fuel mode calls w
  | .name w => nameOperand read fuel mode w
  | .number raw => advance; return .ofExpression (numberTree raw) .primary
  | .string raw => advance; return .ofExpression (stringTree raw) .primary
  | .template =>
    template read fuel
    return .ofExpression (.mk (.verbatim (← sourceFrom start))) .primary
  | .punct "(" => parenthesized read fuel mode
  | .punct "[" => array read fuel .element .inner
  | .punct "\x7b" => object read fuel .element .inner
  | .punct "/" => regex mode
  | .punct "/=" => regex mode
  | .punct "@" =>
    let _ ← decorators read fuel
    return .ofExpression (.mk (.classExpression (← classRest read fuel false))) .primary
  | .punct "<" =>
    let rest ← read .markup
    resume rest
    return .ofExpression (.mk (.verbatim (slice start rest))) .other
  | _ => failure

/-! ## Chains -/

def updated (r : Reading) (operator : String) : Read Reading := do
  let e ← require r.closed?
  advance
  return .ofExpression (.mk (.updateExpression operator false e)) .other

/-- What may follow an operand: member accesses, calls, template tags, and `++` or `--`. `calls` and
`updates` say which of the last are read; `start` is where the operand begins. -/
def suffixes (mode : Mode) (start : List Char) (calls updates : Bool) : Nat → Reading → Read Reading
  | 0, _ => failure
  | n + 1, r => do
    if ← mode.stops then return r
    match ← peek, r.expression with
    | .punct ".", some e =>
      advance
      let name ← memberName
      suffixes mode start calls updates n (.ofReference (.mk (.memberExpression e name false false)))
    | .punct "?.", some e =>
      advance
      match ← peek with
      | .punct "[" => suffixes mode start calls updates n (← indexed read fuel e true)
      | .punct "(" =>
        guardThat (r.kind = .primary)
        suffixes mode start calls updates n (← called read fuel e true)
      | _ =>
        let name ← memberName
        suffixes mode start calls updates n (.ofReference (.mk (.memberExpression e name false true)))
    | .punct "[", some e => suffixes mode start calls updates n (← indexed read fuel e false)
    | .punct "(", some e =>
      if calls then suffixes mode start calls updates n (← called read fuel e false) else return r
    | .template, some _ =>
      guardThat (r.kind ≠ .other)
      template read fuel
      let text ← sourceFrom start
      suffixes mode start calls updates n (.ofExpression (.mk (.verbatim text)) .primary)
    | .punct "++", some _ =>
      if updates then suffixes mode start calls updates n (← updated r "++") else return r
    | .punct "--", some _ =>
      if updates then suffixes mode start calls updates n (← updated r "--") else return r
    | _, _ => return r

/-- `new` with its callee and arguments, or `new.target`. -/
def construction (mode : Mode) : Nat → Read Reading
  | 0 => failure
  | n + 1 => do
    let start ← textAhead
    word "new"
    if ← isPunct "." then
      advance
      word "target"
      return .ofExpression (.mk (.verbatim (← sourceFrom start))) .primary
    else
      let calleeStart ← textAhead
      let goOn := suffixes read fuel mode calleeStart false false fuel
      let r ← if ← isWord "new" then do
          let operand ← construction mode n
          if (← peek) = .template && !(← mode.stops) then goOn operand else pure operand
        else do
          let operand ← primary read fuel mode false
          if operand.kind = .other && (← isPunct "(") then goOn (← called read fuel (← require operand.closed?) false)
          else goOn operand
      guardThat (r.kind ≠ .other)
      let callee ← require r.closed?
      let args ← if !(← mode.stops) && (← isPunct "(") then arguments read fuel else pure []
      return .ofExpression (.mk (.newExpression callee args)) .construction

/-- An operand with what belongs to it more tightly than any operator. -/
def operand (mode : Mode) (updates : Bool) : Read Reading := do
  let start ← textAhead
  let r ← if ← isWord "new" then construction read fuel mode fuel else primary read fuel mode true
  suffixes read fuel mode start true updates fuel r

/-! ## Assignments -/

/-- The operators that assign a computed value. -/
def computingAssignment? : Token → Option String
  | .punct p =>
    if ["+=", "-=", "*=", "/=", "%=", "**=", "<<=", ">>=", ">>>=", "&=", "|=", "^=", "&&=", "||=", "??="].contains p
    then some p else none
  | _ => none

def assigns (t : Token) : Bool := t = .punct "=" || (computingAssignment? t).isSome

/-- An assignment, if an assignment operator follows the operand. -/
def assigned (mode : Mode) (r : Reading) : Read Reading := do
  if !r.isSplit && (← mode.stops) then return r
  match ← peek, r.target with
  | .punct "=", some left =>
    advance
    let right ← expressionTree read mode.behind
    return { expression := some (.mk (.assignmentExpression "=" left right)), pattern := none
             defaulted := r.pattern.map fun p => .mk (.assignmentPattern p right)
             target := none, simple := false, kind := .other }
  | t, some left =>
    match computingAssignment? t with
    | some operator =>
      guardThat r.simple
      advance
      let right ← expressionTree read mode.behind
      return .ofExpression (.mk (.assignmentExpression operator left right)) .other
    | none => return r
  | _, none => return r

end Graft.Source
