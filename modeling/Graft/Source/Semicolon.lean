import Graft.Source.Character
/-!
# Automatic semicolons

Whether a statement may end before the text that follows, without a written semicolon: at the end of
the text, before a closing brace, and at a line break unless the next line goes on with a character
that can only continue an expression. A line break inside a block comment counts only where no operator
could follow.
-/

namespace Graft.Source

/-! ## Blanks and comments -/

/-- What blanks and comments in front of a text come to: a lone slash, nothing but a block comment
without line break, or anything else, with the text after them. -/
inductive Gap where
  | slash
  | sameLine (rest : List Char)
  | passed (rest : List Char)

/-- Inside or outside a comment; `sawBreak` says whether a block comment so far held a line break. -/
inductive GapMode where
  | code (sawBreak : Bool)
  | line (sawBreak : Bool)
  | block (sawBreak : Bool)

/-- Skips blanks and comments. When `through` is false, a block comment ends the gap unless a slash follows it. -/
def gap (through : Bool) : GapMode → List Char → Gap
  | .code _, [] => .passed []
  | .code b, '/' :: '/' :: rest => gap through (.line b) rest
  | .code b, '/' :: '*' :: rest => gap through (.block b) rest
  | .code b, c :: rest =>
    if isAsciiBlank c then gap through (.code b) rest
    else if c = '/' then .slash
    else .passed (c :: rest)
  | .line _, [] => .passed []
  | .line b, c :: rest =>
    if c = '\n' then gap through (.code b) rest
    else if isLineBreak c then .passed (c :: rest)
    else gap through (.line b) rest
  | .block _, [] => .passed []
  | .block b, '*' :: '/' :: rest =>
    if through || rest.head? = some '/' then gap through (.code b) rest
    else if b then .passed rest
    else .sameLine rest
  | .block b, c :: rest => gap through (.block (b || isLineBreak c)) rest

/-! ## The next line -/

/-- Does the word `in` or `instanceof` stand here rather than a name? -/
def startsRelation : List Char → Bool
  | 'i' :: 'n' :: rest =>
    let letter (cs : List Char) : Bool := (cs.head?.map Unicode.isAsciiLetter).getD false
    if !letter rest then true
    else "stanceof".toList.isPrefixOf rest && !letter (rest.drop 8)
  | _ => false

/-- May a statement end at a line break before this text? -/
def lineMayStart : List Char → Bool
  | [] => true
  | c :: rest =>
    if "`,:;*%><=[(?^|&/".toList.contains c then false
    else if c = '.' then (rest.head?.map Unicode.isAsciiDigit).getD false
    else if c = '+' then rest.head? = some '+'
    else if c = '-' then rest.head? = some '-'
    else if c = '!' then rest.head? ≠ some '='
    else !startsRelation (c :: rest)

/-- What follows a line break, blanks and comments skipped. -/
def afterBreak (cs : List Char) : Bool :=
  match gap true (.code false) cs with
  | .slash => false
  | .sameLine rest => lineMayStart rest
  | .passed rest => lineMayStart rest

/-- A comment in front of a text: the answer if the comment decides, or else the text after it. -/
def pastComment (bare : Bool) (cs : List Char) : Bool ⊕ List Char :=
  match cs with
  | '/' :: _ =>
    match gap false (.code false) cs with
    | .slash => .inl false
    | .passed rest =>
      if bare && rest.head? ≠ some ',' && rest.head? ≠ some '=' then .inl true
      else if rest.head? = some '/' then .inl false
      else .inr rest
    | .sameLine rest => .inr rest
  | cs => .inr cs

/-- One look at the text after a token, in which a comment at the very end decides nothing. `bare` says that no operator could follow the token. The first text, which is
the second or longer, bounds the steps. -/
def endsHere (bare : Bool) : List Char → List Char → Bool
  | [], _ => true
  | _, [] => true
  | _ :: bound, cs =>
    match pastComment bare cs with
    | .inl answer => answer
    | .inr [] => false
    | .inr (c :: rest) =>
      if c = '\x7d' then true
      else if isLineBreak c then afterBreak rest
      else if isAsciiBlank c then endsHere bare bound rest
      else false

/-! ## Comments as tokens -/

/-- The text after a comment that stands in front, blanks before it skipped. -/
def dropComment : List Char → Option (List Char)
  | '/' :: '/' :: rest => some (rest.dropWhile fun c => !endsLine c)
  | '/' :: '*' :: rest => afterBlock rest
  | c :: rest => if isBlank c then dropComment rest else none
  | [] => none
where
  /-- The text after the end of a block comment. -/
  afterBlock : List Char → Option (List Char)
    | '*' :: '/' :: rest => some rest
    | _ :: rest => afterBlock rest
    | [] => none

/-- The place in front of a text where a statement may end, given as what follows it. The question is put again after
each comment; the first text bounds the steps as before. -/
def insertionWithin? (bare : Bool) : List Char → List Char → Option (List Char)
  | [], cs => some cs
  | _ :: bound, cs =>
    if endsHere bare cs cs then some cs
    else
      match dropComment cs with
      | some rest => insertionWithin? bare bound rest
      | none => none

/-- The place in front of a text where a statement may end. -/
def insertion? (bare : Bool) (cs : List Char) : Option (List Char) := insertionWithin? bare cs cs

/-- May a statement end in front of a text? -/
def mayEnd (bare : Bool) (cs : List Char) : Bool := (insertion? bare cs).isSome

/-- Is a question mark before this text the whole operator? -/
def loneQuestion : List Char → Bool
  | '?' :: _ => false
  | '.' :: rest => (rest.head?.map Unicode.isAsciiDigit).getD false
  | _ => true

/-- May the question mark of a conditional stand at the end of the gap in front of a text? Only ASCII blanks may come
between it and the last token or comment, and the break to a next line where a statement could have ended. -/
def questionMayFollow (ends : Bool) (cs : List Char) : Bool := within cs cs
where
  /-- The text after each comment in turn; the first text bounds the steps. -/
  within : List Char → List Char → Bool
    | [], _ => true
    | _ :: bound, cs =>
      match dropComment cs with
      | some rest => within bound rest
      | none =>
        let blanks := cs.takeWhile isBlank
        blanks.all isAsciiBlank ||
          (ends && ((blanks.dropWhile isAsciiBlank).head?.map isLineBreak).getD false &&
            (blanks.dropWhile isAsciiBlank).tail.all isAsciiBlank)

end Graft.Source
