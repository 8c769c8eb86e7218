import Graft.Regex.Expr
import Graft.Regex.Property
/-!
# Reading patterns

A pattern is read as a whole or refused: there are no look-around and no references back. Flags are worked
in as they are met, up to the end of their group.
-/

namespace Graft.Regex

structure Flags where
  caseless : Bool := false
  multiLine : Bool := false
  dotAll : Bool := false
  swapGreed : Bool := false
  unicode : Bool := true
  carriageReturns : Bool := false
  spaced : Bool := false
  deriving Inhabited

namespace Flags

/-- Sets or clears the flag of a letter. -/
def set? (f : Flags) (letter : Char) (on : Bool) : Option Flags :=
  match letter with
  | 'i' => some { f with caseless := on }
  | 'm' => some { f with multiLine := on }
  | 's' => some { f with dotAll := on }
  | 'U' => some { f with swapGreed := on }
  | 'u' => some { f with unicode := on }
  | 'R' => some { f with carriageReturns := on }
  | 'x' => some { f with spaced := on }
  | _ => none

end Flags

/-- What is left of a pattern, the flags in force, and the groups so far. -/
structure Reader where
  rest : List Char
  flags : Flags
  names : List (String × Nat)
  groups : Nat

abbrev Reading (α : Type) := StateT Reader Option α

namespace Reading

def require {α : Type} : Option α → Reading α
  | some a => pure a
  | none => failure

def guardThat (b : Bool) : Reading Unit := if b then pure () else failure

def peek : Reading (Option Char) := do return (← get).rest.head?

def flags : Reading Flags := do return (← get).flags

def setRest (rest : List Char) : Reading Unit := modify fun s => { s with rest := rest }

/-- Takes one character. -/
def bump : Reading Unit := modify fun s => { s with rest := s.rest.tail }

/-- Takes the character that has to be here. -/
def next : Reading Char := do
  let c ← require (← peek)
  bump
  return c

/-- A text without the blanks and comments at its front. -/
def dropBlanks : Nat → List Char → List Char
  | 0, cs => cs
  | _ + 1, [] => []
  | fuel + 1, c :: rest =>
    if Unicode.isWhiteSpace c then dropBlanks fuel rest
    else if c = '#' then dropBlanks fuel (rest.dropWhile (· ≠ '\n'))
    else c :: rest

/-- The text ahead, without blanks and comments where these do not count. -/
def ahead (f : Flags) (cs : List Char) : List Char := if f.spaced then dropBlanks (cs.length + 1) cs else cs

/-- Skips blanks and comments where these do not count. -/
def skip : Reading Unit := modify fun s => { s with rest := ahead s.flags s.rest }

/-- Takes one character and what does not count after it. -/
def step : Reading Unit := do
  bump
  skip

/-- Takes one character and what does not count after it; something has to follow. -/
def stepInside : Reading Unit := do
  step
  guardThat (← peek).isSome

/-- Takes these characters if they are next. -/
def accept (word : String) : Reading Bool := do
  let s ← get
  if word.toList.isPrefixOf s.rest then
    setRest (s.rest.drop word.length)
    return true
  else return false

/-- Takes characters up to, and not including, one that passes the test. -/
def upTo (stop : Char → Bool) : Reading (List Char) := do
  let s ← get
  setRest (s.rest.dropWhile fun c => !stop c)
  return s.rest.takeWhile fun c => !stop c

/-! ## Characters and escapes -/

/-- One element of a pattern, or of a class in brackets. -/
inductive Primitive where
  | literal (c : Char) (byte : Bool)
  | dot
  | look (look : Look)
  | set (set : CharSet)

/-- Characters that mean something unescaped. -/
def isMeta (c : Char) : Bool := "\\.+*?()|[]\x7b\x7d^$#&-~".toList.contains c

/-- May a character stand for itself after a backslash? -/
def isEscapable (c : Char) : Bool :=
  isMeta c || (c.toNat < 128 && !c.isAlphanum && c ≠ '<' && c ≠ '>')

def hexDigit? (c : Char) : Option Nat :=
  if c.isDigit then some (c.toNat - 48)
  else if 'a' ≤ c ∧ c ≤ 'f' then some (c.toNat - 87)
  else if 'A' ≤ c ∧ c ≤ 'F' then some (c.toNat - 55)
  else none

/-- The character that hexadecimal digits name. -/
def ofHex (digits : List Char) : Reading Char := do
  let values ← require (digits.mapM hexDigit?)
  let code := values.foldl (fun n d => n * 16 + d) 0
  guardThat (!values.isEmpty && code.isValidChar)
  return Char.ofNat code

/-- Digits up to a closing brace. -/
def bracedDigits : Nat → Reading (List Char)
  | 0 => failure
  | fuel + 1 => do
    stepInside
    if (← peek) = some '\x7d' then
      step
      return []
    else
      let c ← require (← peek)
      return c :: (← bracedDigits fuel)

/-- A fixed number of digits. -/
def fixedDigits : Nat → Reading (List Char)
  | 0 => pure []
  | 1 => do
    let c ← require (← peek)
    step
    return [c]
  | count + 2 => do
    let c ← require (← peek)
    stepInside
    return c :: (← fixedDigits (count + 1))

/-- A character by its code point, after `x`, `u` or `U`. -/
def hexEscape (letter : Char) : Reading Primitive := do
  stepInside
  if (← peek) = some '\x7b' then
    return .literal (← ofHex (← bracedDigits ((← get).rest.length + 1))) false
  else
    let count := if letter = 'x' then 2 else if letter = 'u' then 4 else 8
    return .literal (← ofHex (← fixedDigits count)) (letter = 'x')

/-- The class with differences in case taken away, if they do not count. -/
def folded (f : Flags) (set : CharSet) : CharSet :=
  if f.caseless then if f.unicode then set.foldCase else set.foldAsciiCase else set

/-- A class as it is used: folded, then perhaps turned around. Without Unicode it has to stay in ASCII. -/
def finished (negated : Bool) (set : CharSet) : Reading CharSet := do
  let f ← flags
  let set := folded f set
  let set := if negated then set.compl else set
  guardThat (f.unicode || set.isAscii)
  return set

/-- Splits a text at the first occurrence of a separator. -/
def splitAt? (separator : List Char) : List Char → Option (List Char × List Char)
  | [] => none
  | c :: rest =>
    if separator.isPrefixOf (c :: rest) then some ([], (c :: rest).drop separator.length)
    else (splitAt? separator rest).map fun (front, back) => (c :: front, back)

/-- The class that the text in braces after `p` names. -/
def classOf? (name : List Char) : Option CharSet :=
  match splitAt? ['!', '='] name, splitAt? [':'] name, splitAt? ['='] name with
  | some (property, value), _, _ => valuedClass? property value
  | _, some (property, value), _ => valuedClass? property value
  | _, _, some (property, value) => valuedClass? property value
  | none, none, none => namedClass? name

/-- Text up to a closing brace, blanks and comments left out where these do not count. -/
def bracedName : Nat → Reading (List Char)
  | 0 => failure
  | fuel + 1 => do
    stepInside
    let c ← require (← peek)
    if c = '\x7d' then
      bump
      return []
    else return c :: (← bracedName fuel)

/-- A class by its name, after `p` or `P`. -/
def namedEscape (negated : Bool) : Reading Primitive := do
  stepInside
  let c ← require (← peek)
  let set ← if c = '\x7b' then require (classOf? (← bracedName ((← get).rest.length + 1)))
    else do
      guardThat (c ≠ '\\')
      step
      require (namedClass? [c])
  guardThat (← flags).unicode
  return .set (← finished negated set)

def wordLook (boundary : Boundary) : Reading Primitive := do return .look (.word (← flags).unicode boundary)

def isBoundaryLetter (c : Char) : Bool := c.isAlpha || c = '-'

/-- Letters up to a closing brace. -/
def boundaryName : Nat → Reading (List Char)
  | 0 => failure
  | fuel + 1 => do
    let c ← require (← peek)
    if isBoundaryLetter c then
      step
      return c :: (← boundaryName fuel)
    else
      guardThat (c = '\x7d')
      bump
      return []

/-- A word boundary, which may be told apart by a word in braces. -/
def boundaryEscape : Reading Primitive := do
  let s ← get
  if (← peek) = some '\x7b' then
    stepInside
    if isBoundaryLetter (← require (← peek)) then
      match String.ofList (← boundaryName ((← get).rest.length + 1)) with
      | "start" => wordLook .start
      | "end" => wordLook .end
      | "start-half" => wordLook .startHalf
      | "end-half" => wordLook .endHalf
      | _ => failure
    else
      set s
      wordLook .either
  else wordLook .either

/-- What a backslash begins. -/
def escape : Reading Primitive := do
  bump
  let c ← require (← peek)
  if c.isDigit then failure
  else if c = 'x' || c = 'u' || c = 'U' then hexEscape c
  else if c = 'p' || c = 'P' then namedEscape (c = 'P')
  else
    bump
    match shorthandClass? (← flags).unicode c.toLower with
    | some set =>
      if c.isAlpha then
        let set := if c.isUpper then set.compl else set
        guardThat ((← flags).unicode || set.isAscii)
        return .set set
      else failure
    | none =>
      if isEscapable c then return .literal c false
      else
        match c with
        | 'a' => return .literal '\x07' false
        | 'f' => return .literal '\x0c' false
        | 't' => return .literal '\t' false
        | 'n' => return .literal '\n' false
        | 'r' => return .literal '\r' false
        | 'v' => return .literal '\x0b' false
        | 'A' => return .look .textStart
        | 'z' => return .look .textEnd
        | 'b' => boundaryEscape
        | 'B' => wordLook .neither
        | '<' => wordLook .start
        | '>' => wordLook .end
        | _ => failure

/-! ## Classes in brackets -/

/-- The code point of an end of a range. -/
def classLiteral (p : Primitive) : Reading Nat := do
  match p with
  | .literal c _ =>
    guardThat ((← flags).unicode || c.toNat < 128)
    return c.toNat
  | _ => failure

def classElement (p : Primitive) : Reading CharSet := do
  match p with
  | .set set => return set
  | p => return CharSet.single (← classLiteral p)

def classPrimitive : Reading Primitive := do
  if (← peek) = some '\\' then escape else return .literal (← next) false

/-- One character or a range. -/
def classRange : Reading CharSet := do
  let first ← classPrimitive
  skip
  guardThat (← peek).isSome
  let s ← get
  let after := (ahead s.flags s.rest.tail).head?
  if s.rest.head? ≠ some '-' || after = some ']' || after = some '-' then classElement first
  else
    stepInside
    let low ← classLiteral first
    let high ← classLiteral (← classPrimitive)
    guardThat (low ≤ high)
    return CharSet.range low high

/-- A class of ASCII characters by its name, if one stands here. -/
def asciiElement : Reading (Option CharSet) := do
  let s ← get
  let attempt : Reading CharSet := do
    guardThat (← accept "[:")
    let negated ← accept "^"
    let name ← upTo (· = ':')
    guardThat (← accept ":]")
    let set ← require (asciiClass? (String.ofList name))
    let f ← flags
    let set := folded f set
    return if negated then set.compl else set
  match attempt.run s with
  | some (set, after) =>
    guardThat (after.flags.unicode || set.isAscii)
    setRest after.rest
    return some set
  | none => return none

inductive SetOperator where
  | inter
  | diff
  | symmDiff

/-- The set so far: what stands left of the last operator, and the elements after it. -/
structure Pending where
  left : Option (SetOperator × CharSet)
  elements : CharSet

/-- Applies the operator that waits. -/
def Pending.value (p : Pending) (f : Flags) : CharSet :=
  match p.left with
  | none => p.elements
  | some (op, left) =>
    let left := folded f left
    let right := folded f p.elements
    match op with
    | .inter => left.inter right
    | .diff => left.diff right
    | .symmDiff => left.symmDiff right

/-- Hyphens that open a class stand for themselves. -/
def leadingHyphens : Nat → CharSet → Reading CharSet
  | 0, set => pure set
  | fuel + 1, set => do
    if (← peek) = some '-' then
      stepInside
      leadingHyphens fuel (CharSet.single 45)
    else return set

/-- The opening of a class: whether it is turned around, and the elements that only its start can have. -/
def classOpening : Reading (Bool × CharSet) := do
  stepInside
  let negated := (← peek) = some '^'
  if negated then stepInside
  let set ← leadingHyphens ((← get).rest.length + 1) .empty
  if set.changes.isEmpty && (← peek) = some ']' then
    stepInside
    return (negated, CharSet.single 93)
  else return (negated, set)

mutual
/-- A class, from its opening bracket on. -/
def bracketed : Nat → Reading CharSet
  | 0 => failure
  | fuel + 1 => do
    let (negated, set) ← classOpening
    finished negated (← classElements fuel { left := none, elements := set })

/-- The elements of a class, up to and with its closing bracket. -/
def classElements : Nat → Pending → Reading CharSet
  | 0, _ => failure
  | fuel + 1, pending => do
    skip
    let add (set : CharSet) : Pending := { pending with elements := pending.elements.union set }
    let operator (op : SetOperator) : Reading CharSet := do
      let f ← flags
      classElements fuel { left := some (op, pending.value f), elements := .empty }
    match ← peek with
    | none => failure
    | some '[' =>
      match ← asciiElement with
      | some set => classElements fuel (add set)
      | none => classElements fuel (add (← bracketed fuel))
    | some ']' =>
      bump
      return pending.value (← flags)
    | some _ =>
      if ← accept "&&" then operator .inter
      else if ← accept "--" then operator .diff
      else if ← accept "~~" then operator .symmDiff
      else classElements fuel (add (← classRange))
end

/-! ## Repetition -/

/-- An element of a sequence. Flags set in passing are one that cannot be repeated. -/
structure Element where
  expr : Expr
  depth : Nat
  repeatable : Bool

/-- The last element, repeated. -/
def repeated (least : Nat) (most : Option Nat) (lazily : Bool) : List Element → Reading (List Element)
  | last :: before => do
    guardThat last.repeatable
    let greedy := !lazily != (← flags).swapGreed
    return ⟨Expr.ofTimes least most greedy last.expr, last.depth + 1, true⟩ :: before
  | [] => failure

/-- A decimal number of 32 bits, with white space around it. -/
def decimal : Reading (Option Nat) := do
  modify fun s => { s with rest := s.rest.dropWhile Unicode.isWhiteSpace }
  let s ← get
  let rec digits : Nat → List Char → List Char × List Char
    | 0, cs => ([], cs)
    | _ + 1, [] => ([], [])
    | fuel + 1, c :: rest =>
      if c.isDigit then
        let (ds, after) := digits fuel (ahead s.flags rest)
        (c :: ds, after)
      else ([], c :: rest)
  let (ds, rest) := digits s.rest.length s.rest
  setRest (rest.dropWhile Unicode.isWhiteSpace)
  skip
  let n := ds.foldl (fun n c => n * 10 + (c.toNat - 48)) 0
  guardThat (n < twoTo 32)
  return if ds.isEmpty then none else some n

/-- A repetition with bounds in braces. -/
def counted (elements : List Element) : Reading (List Element) := do
  stepInside
  let least ← decimal
  let c ← require (← peek)
  let (least, most) ← if c = ',' then do
      stepInside
      let least ← require least
      if (← peek) = some '\x7d' then pure (least, none)
      else do pure (least, some (← require (← decimal)))
    else do
      let least ← require least
      pure (least, some least)
  guardThat ((← peek) = some '\x7d')
  step
  let lazily := (← peek) = some '?'
  if lazily then bump
  guardThat ((most.map (decide <| least ≤ ·)).getD true)
  repeated least most lazily elements

/-- A repetition by a sign. -/
def signed (least : Nat) (most : Option Nat) (elements : List Element) : Reading (List Element) := do
  bump
  let lazily := (← peek) = some '?'
  if lazily then bump
  repeated least most lazily elements

/-! ## Groups and alternatives -/

def isNameStart (c : Char) : Bool := c = '_' || Unicode.isAlphabetic c

def isNamePart (c : Char) : Bool :=
  c = '_' || c = '.' || c = '[' || c = ']' || Unicode.isAlphanumeric c

/-- The name of a group and the bracket after it. -/
def groupName : Reading String := do
  let name ← upTo (· = '>')
  bump
  guardThat ((name.head?.map isNameStart).getD false && name.all isNamePart)
  return String.ofList name

/-- Letters of flags, each at most once, with at most one hyphen, which does not come last. -/
def flagsFrom : List Char → Bool → List Char → Flags → Option Flags
  | _, _, [], f => some f
  | seen, on, c :: rest, f =>
    if seen.contains c then none
    else if c = '-' then if rest.isEmpty then none else flagsFrom (c :: seen) false rest f
    else (f.set? c on).bind fun f => flagsFrom (c :: seen) on rest f

def closeSequence (elements : List Element) : Expr × Nat :=
  match elements with
  | [] => (.empty, 0)
  | [e] => (e.expr, e.depth)
  | last :: before =>
    (before.foldl (fun acc e => .sequence e.expr acc) last.expr,
     elements.foldl (fun d e => max d e.depth) 0 + 1)

def closeAlternatives (branches : List (Expr × Nat)) : Expr × Nat :=
  match branches with
  | [] => (.empty, 0)
  | [b] => b
  | last :: before =>
    (before.foldl (fun acc b => .choice b.1 acc) last.1, branches.foldl (fun d b => max d b.2) 0 + 1)

/-- One character or position, as an expression. -/
def ofPrimitive (p : Primitive) : Reading Expr := do
  let f ← flags
  match p with
  | .literal c byte =>
    guardThat (f.unicode || !byte || c.toNat < 128)
    let set := CharSet.single c.toNat
    return .chars (folded f set)
  | .dot =>
    guardThat f.unicode
    let breaks := if f.dotAll then CharSet.empty
      else if f.carriageReturns then (CharSet.single 10).union (CharSet.single 13)
      else CharSet.single 10
    return .chars breaks.compl
  | .look l => return .look l
  | .set set => return .chars set

/-- What begins an element that is neither a group nor a class. -/
def primitive : Reading Primitive := do
  let f ← flags
  match ← peek with
  | some '\\' => escape
  | some '.' =>
    bump
    return .dot
  | some '^' =>
    bump
    return .look (if f.multiLine then .lineStart f.carriageReturns else .textStart)
  | some '$' =>
    bump
    return .look (if f.multiLine then .lineEnd f.carriageReturns else .textEnd)
  | _ => return .literal (← next) false

/-- Notes a new group, by name if it has one. -/
def newGroup (name : Option String) : Reading Nat := do
  let s ← get
  let index := s.groups + 1
  match name with
  | some name =>
    guardThat (s.names.lookup name).isNone
    set { s with groups := index, names := (name, index) :: s.names }
  | none => set { s with groups := index }
  return index

mutual
/-- Alternatives up to the end of their group, or of the pattern. `elements` and `branches` are those so far, the
last first. -/
def alternatives : Nat → List (Expr × Nat) → List Element → Reading (Expr × Nat)
  | 0, _, _ => failure
  | fuel + 1, branches, elements => do
    skip
    match ← peek with
    | none => return closeAlternatives (closeSequence elements :: branches)
    | some ')' => return closeAlternatives (closeSequence elements :: branches)
    | some '|' =>
      bump
      alternatives fuel (closeSequence elements :: branches) []
    | some '(' => alternatives fuel branches ((← group fuel) :: elements)
    | some '[' =>
      let set ← bracketed ((← get).rest.length + 1)
      alternatives fuel branches (⟨.chars set, 1, true⟩ :: elements)
    | some '?' => alternatives fuel branches (← signed 0 (some 1) elements)
    | some '*' => alternatives fuel branches (← signed 0 none elements)
    | some '+' => alternatives fuel branches (← signed 1 none elements)
    | some '\x7b' => alternatives fuel branches (← counted elements)
    | some _ =>
      let e ← ofPrimitive (← primitive)
      alternatives fuel branches (⟨e, 0, true⟩ :: elements)

/-- A group, or flags set in passing, from the opening parenthesis on. -/
def group : Nat → Reading Element
  | 0 => failure
  | fuel + 1 => do
    let outer ← flags
    bump
    skip
    if (← accept "?P<") || (← accept "?<") then
      let name ← groupName
      body fuel outer (← newGroup name)
    else if ← accept "?" then
      let letters ← upTo fun c => c = ':' || c = ')'
      let inner ← require (flagsFrom [] true letters outer)
      let close ← next
      modify fun s => { s with flags := inner }
      if close = ')' then
        guardThat !letters.isEmpty
        return ⟨.empty, 0, false⟩
      else
        let (e, depth) ← alternatives fuel [] []
        guardThat ((← peek) = some ')')
        bump
        modify fun s => { s with flags := outer }
        return ⟨e, depth + 1, true⟩
    else body fuel outer (← newGroup none)

/-- The inside of a group that captures, and its end. -/
def body : Nat → Flags → Nat → Reading Element
  | 0, _, _ => failure
  | fuel + 1, outer, index => do
    let (e, depth) ← alternatives fuel [] []
    guardThat ((← peek) = some ')')
    bump
    modify fun s => { s with flags := outer }
    return ⟨.capture index e, depth + 1, true⟩
end

end Reading

/-- Deeper patterns are refused. -/
def depthLimit : Nat := 250

/-- The expression that a pattern stands for and the names of its groups. -/
def read? (pattern : String) : Option (Expr × List (String × Nat)) := do
  let cs := pattern.toList
  let (result, reader) ← (Reading.alternatives (3 * cs.length + 3) [] []).run
    { rest := cs, flags := {}, names := [], groups := 0 }
  if reader.rest.isEmpty && result.2 ≤ depthLimit then some (result.1, reader.names) else none

end Graft.Regex
