import Graft.Source.Expression
/-!
# Markup in source

Elements in angle brackets are kept as source text, so reading one only finds where it ends. Names may
hold hyphens, a namespace and member names; the names of an opening and a closing tag are not compared.
-/

namespace Graft.Source

open Read

variable (read : Readers) (fuel : Nat)

namespace Markup

/-- The text of a tag after blanks and comments. -/
def tagGap (cs : List Char) : List Char := skipGap true cs

def isPlainPart (c : Char) : Bool := Unicode.isAsciiLetter c || Unicode.isAsciiDigit c || c = '$' || c = '_'

/-- The length of a name that holds a hyphen, zero if there is none in front. -/
def hyphenatedLength (cs : List Char) : Nat :=
  let front := cs.takeWhile isPlainPart
  if (front.head?.map Unicode.isAsciiDigit).getD true || (cs.drop front.length).head? ≠ some '-' then 0
  else (cs.takeWhile fun c => isPlainPart c || c = '-').length

/-- The text after a name without hyphens, if one stands here after blanks. -/
def plainName? (cs : List Char) : Option (List Char) :=
  let cs := tagGap cs
  let n := nameLength 0 0 cs
  if n = 0 || isReserved (String.ofList (cs.take n)) then none else some (cs.drop n)

/-- The text after a name with or without hyphens. -/
def name? (cs : List Char) : Option (List Char) :=
  let n := hyphenatedLength (tagGap cs)
  if n = 0 then plainName? cs else some ((tagGap cs).drop n)

/-- The text after the names that dots join to a name. -/
def memberNames? : Nat → List Char → Option (List Char)
  | 0, _ => none
  | n + 1, cs =>
    match tagGap cs with
    | '.' :: rest => (plainName? rest).bind (memberNames? n)
    | _ => some cs

/-- The text after the name of an element: with a namespace, or with member names if it has no hyphen. -/
def elementName? (cs : List Char) : Option (List Char) := do
  let rest ← name? cs
  match tagGap rest with
  | ':' :: more => name? more
  | '.' :: _ => if hyphenatedLength (tagGap cs) = 0 then memberNames? fuel rest else none
  | _ => some rest

/-- The text after the name of an attribute. -/
def attributeName? (cs : List Char) : Option (List Char) := do
  let rest ← name? cs
  match tagGap rest with
  | ':' :: more => name? more
  | _ => some rest

/-- The text after a character reference, whose `&` has been passed. -/
def referenceEnd? (cs : List Char) : Option (List Char) :=
  let ended (test : Char → Bool) (most : Nat) (cs : List Char) : Option (List Char) :=
    let n := (cs.takeWhile test).length
    if 0 < n && n ≤ most && (cs.drop n).head? = some ';' then some (cs.drop (n + 1)) else none
  match cs with
  | '#' :: x :: rest => if x = 'x' || x = 'X' then ended isHexDigit 6 rest else ended Unicode.isAsciiDigit 5 (x :: rest)
  | cs => ended Unicode.isAsciiLetter 30 cs

/-- The text after a quoted value, whose opening quote has been passed. -/
def quotedEnd? (quote : Char) : Nat → List Char → Option (List Char)
  | 0, _ => none
  | _ + 1, [] => none
  | n + 1, c :: rest =>
    if c = quote then some rest
    else if c = '&' then
      match rest with
      | d :: more =>
        if d = '#' || Unicode.isAsciiLetter d then (referenceEnd? rest).bind (quotedEnd? quote n)
        else quotedEnd? quote n more
      | [] => none
    else quotedEnd? quote n rest

/-- An expression in braces; `cs` begins after the opening one, and the result after the closing one. -/
def embedded (cs : List Char) : Read (List Char) := do
  set (State.ofText true cs)
  if !(← isPunct "\x7d") then
    if ← punct? "..." then
      let _ ← expressionTree read .inner
    else
      let _ ← expressions read fuel .inner
  guardThat (← isPunct "\x7d")
  return (← get).rest

/-- An element read through its opening `<`. -/
def nested (cs : List Char) : Read (List Char) := do
  set (State.ofText false cs)
  guardThat (← isPunct "<")
  read .markup

/-- The value of an attribute. -/
def attributeValue (cs : List Char) : Read (List Char) := do
  match tagGap cs with
  | '\x7b' :: rest => embedded read fuel rest
  | '<' :: rest => nested read ('<' :: rest)
  | c :: rest =>
    guardThat (c = '"' || c = '\'')
    require (quotedEnd? c fuel rest)
  | [] => failure

/-- The attributes of a tag, to the text after them. -/
def attributes : Nat → List Char → Read (List Char)
  | 0, _ => failure
  | n + 1, cs => do
    match tagGap cs with
    | '\x7b' :: rest => attributes n (← embedded read fuel rest)
    | cs =>
      match attributeName? cs with
      | some rest =>
        match tagGap rest with
        | '=' :: value => attributes n (← attributeValue read fuel value)
        | _ => attributes n rest
      | none => return cs

/-- The text after a closing tag whose `<` and `/` have been passed. -/
def closingTag? (cs : List Char) : Option (List Char) :=
  match tagGap ((elementName? fuel cs).getD cs) with
  | '>' :: rest => some rest
  | _ => none

/-- Text, character references, embedded expressions and elements up to the closing tag. -/
def children : Nat → List Char → Read (List Char)
  | 0, _ => failure
  | n + 1, cs => do
    match cs with
    | [] => failure
    | '\x7b' :: rest => children n (← embedded read fuel rest)
    | '&' :: rest => children n (← require (referenceEnd? rest))
    | '<' :: '/' :: rest => require (closingTag? fuel rest)
    | '<' :: '!' :: '-' :: '-' :: rest => children n (rest.dropWhile fun c => !isLineBreak c)
    | '<' :: _ => children n (← nested read cs)
    | c :: rest => if c = '>' || c = '\x7d' then failure else children n rest

end Markup

open Markup in
/-- An element; the token is its `<`. Gives the text after it. -/
def markup : Read (List Char) := do
  let cs := (← textAhead).drop 1
  match tagGap cs with
  | '>' :: rest => children read fuel fuel rest
  | _ =>
    let cs ← require (elementName? fuel cs)
    let cs ← attributes read fuel fuel cs
    match tagGap cs with
    | '/' :: '>' :: rest => return rest
    | '>' :: rest => children read fuel fuel rest
    | _ => failure

end Graft.Source
