import Graft.Source.Operand
/-!
# `yield` and `await`

Both words begin an operation, and `await` is a name as well. Where it could be either, what follows settles it.
-/

namespace Graft.Source

open Read

variable (read : Readers) (fuel : Nat)

/-- Can an expression begin with this token? -/
def startsOperand : Token → Bool
  | .word w => !(["in", "instanceof"].contains w)
  | .name _ | .number _ | .string _ | .template | .privateName _ => true
  | .ended | .unknown => false
  | .punct p => ["(", "[", "\x7b", "+", "-", "!", "~", "++", "--", "<", "@"].contains p

/-- `yield` with what it yields, kept as source text. -/
def yielded (mode : Mode) : Read Reading := do
  let start ← textAhead
  advance
  let ends ← mode.stops
  let separates := mode.takesOf && (← isWord "of")
  let asks := (← mode.questionAhead?).isSome
  let follows := !ends && !separates && !asks && (startsOperand (← peek) || (← isPunct "*") || (← isPunct "/"))
  if follows then
    let _ ← punct? "*"
    let _ ← expressionTree read mode.behind
  let r := Reading.ofExpression (.mk (.verbatim (← sourceFrom start))) .other
  if follows then return r else suffixes read fuel mode start true true fuel r

/-- Does the last statement end at the very end of the text, after any comment? -/
def nothingLeft (s : State) : Bool :=
  s.token = .ended && ((insertion? false s.previous).getD s.previous).all isBlank

/-- After the word `await` with one call, access or template behind it: does more follow that belongs to the same chain, or
is the access assigned to? -/
def chainGoesOn (mode : Mode) (accessed : Bool) : Read Bool := do
  if ← mode.stops then return false
  else
    match ← peek with
    | .template => return true
    | .punct p => return [".", "?.", "[", "(", "++", "--"].contains p || (accessed && assigns (.punct p))
    | _ => return false

def isUpdate (t : Token) : Bool := t = .punct "++" || t = .punct "--"

/-- Behind `++` or `--` after the word `await`: does a call or an access stand here that belongs to a chain which goes on? -/
def updatedChainGoesOn (mode : Mode) : Read Bool := do
  advance
  let accessed ← isPunct "["
  guardThat (accessed || (← isPunct "("))
  let first ← primary read fuel mode.behind true
  if first.kind = .primary then chainGoesOn mode accessed else return false

/-- Can a name go on with this token as a call, an access or a template? -/
def startsAccess (t : Token) : Bool := t = .punct "(" || t = .punct "[" || t = .template

/-- Can a name go on with this token, in an operation or otherwise, that could begin an operand as well? -/
def couldFollowName (t : Token) : Bool :=
  startsAccess t || isUpdate t || [.punct "/", .punct "/=", .punct "<", .punct "+", .punct "-"].contains t

/-- Can this word begin an operand, and not only a statement? -/
def wordStartsOperand (w : String) : Bool :=
  !(isReserved w) ||
    ["await", "class", "delete", "export", "false", "function", "import", "new", "null", "super", "this", "true", "typeof",
      "void"].contains w

/-- Does a sign stand before a product here? -/
def signsProduct (mode : Mode) : Read Bool := do
  advance
  let _ ← read (.operation mode.behind 12)
  let next ← peek
  return !(← mode.stops) && [.punct "*", .punct "/", .punct "%"].contains next

/-- After the word `await` a slash begins a regular expression, unless operands stand in it and behind it, the latter perhaps
on the next line or with a sign in front in a product. -/
def dividesAwait (mode : Mode) : Read Bool := do
  if ← isPunct "/" then
    let body := (← get).rest
    let closing := body.drop ((patternLength? false 0 body).getD 0)
    let s ← get
    advance
    let _ ← read (.operation .inner 12)
    set s
    match (← regex mode).expression with
    | some (.mk (.literal (.regex _ "") _)) =>
      let ends ← mode.stops
      let next ← second
      if closing.take 2 = ['/', '*'] then return (commentLength? closing).isSome
      if ends && closing.take 2 = ['/', '/'] then return false
      match ← peek with
      | .word w =>
        let declares := w = "let" && startsOperand next.token
        return wordStartsOperand w && !(ends && (declares || next.token = .punct ":"))
      | .number _ | .string _ | .template | .privateName _ => return true
      | .punct p =>
        if ["\x7b", "!", "~", "@"].contains p then return true
        else if p = "+" || p = "-" then return !ends && mode.role ≠ .summand && (← signsProduct read mode)
        else if isUpdate (.punct p) && startsOperand next.token then
          advance
          if ends then return true
          else if next.token = .punct "+" || next.token = .punct "-" then signsProduct read mode
          else return next.token ≠ .punct "(" && next.token ≠ .punct "["
        else return false
      | _ => return false
    | _ => return false
  else return false

/-- Could the word `await` name the function of the call that follows it, all of which is taken? -/
def namesCall : Read Bool := do
  if ← isPunct "(" then
    let _ ← called read fuel (identifierTree "await") false
    let t ← peek
    return t ≠ .punct "=>" && !(assigns t)
  else return false

/-- `await` with what it waits for, or the word as a name. Where both are possible, a chain that begins with a call, an
access or a template and goes on after it belongs to the name, as does one that stands at the very end of the text and a
call in the default of something that is bound. What could be an element of a pattern is one by its name only, and only where
the name ends with what is waited for. -/
def awaited (mode : Mode) : Read Reading := do
  let s ← get
  let asName : Read Reading := do
    set s
    operand read fuel mode true
  advance
  let ends ← mode.stops
  let separates := mode.takesOf && mode.role ≠ .statement && (← isWord "of")
  let asks := (← mode.questionAhead?).isSome
  let adds := mode.role = .summand && (← isSign) && (← noComment)
  let next ← get
  let held (test : Read Bool) : Bool := ((test.run next).map Prod.fst).getD false
  if ends || separates || asks || adds || mode.role = .named || !(startsOperand next.token || next.token = .punct "/") then asName
  else if (← read .awaitSense) = .name && couldFollowName next.token then asName
  else if ((← read .awaitSense) = .byContext && held (dividesAwait read mode)) || (mode.role = .binding && held (namesCall read fuel)) then asName
  else
    let waiting : Read Reading := do
      let (awaits, goesOn) ← if startsAccess next.token then do
          let start ← textAhead
          let first ← primary read fuel mode.behind true
          let goesOn ← if first.kind = .primary then chainGoesOn mode (next.token = .punct "[") else pure false
          pure (← assigned read mode.behind (← suffixes read fuel mode.behind start true true fuel first), goesOn)
        else if isUpdate next.token then do
          let goesOn := held (updatedChainGoesOn read fuel mode)
          pure (← read (.unary mode.behind), goesOn)
        else pure (← read (.unary mode.behind), false)
      let r := Reading.ofExpression (.mk (.awaitExpression (← require awaits.closed?))) .other
      let here ← get
      let atEnd := nothingLeft here
      let couldBind := mode.role = .element || mode.role = .binding
      if !(goesOn || atEnd || (couldBind && next.token = .punct "[")) then return r
      match asName.run s with
      | none => return r
      | some (name, after) =>
        let takesName := if mode.role = .element && name.simple then assigns after.token
          else goesOn || (nothingLeft after && name.kind = .primary)
        if takesName then
          set after
          return name
        else if couldBind && after.previous.length = here.previous.length then return { r with pattern := name.pattern }
        else return r
    waiting <|> asName

end Graft.Source
