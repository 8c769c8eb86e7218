import Graft.Source.Character
/-!
# Tokens

One token at a time from the front of a text: names and keywords, private names, numbers, strings and
punctuators, longest match first. A slash is always read as a punctuator here; regular expressions,
template literals and markup are read again from their first character where the grammar expects them.
-/

namespace Graft.Source

inductive Token where
  | word (text : String)
  /-- A reserved word in a place where it only names something. -/
  | name (text : String)
  | privateName (text : String)
  | number (text : String)
  | string (text : String)
  | punct (text : String)
  | template
  | ended
  | unknown
  deriving DecidableEq, Inhabited

/-! ## Between tokens -/

inductive SkipMode where
  | code (markup : Bool)
  | line
  | markupLine
  | block

/-- Skips blanks and comments. A block comment that is not closed stays. With `markup`, the comments `<!--` and `-->` are
skipped too, where only ASCII blanks and line breaks stand in front of them. -/
def skip (markup : Bool) : SkipMode → List Char → List Char → List Char
  | .code _, _, [] => []
  | .code _, _, '/' :: '/' :: rest => skip markup .line [] rest
  | .code _, _, '/' :: '*' :: rest => skip markup .block ('/' :: '*' :: rest) rest
  | .code m, _, '<' :: '!' :: '-' :: '-' :: rest =>
    if m then skip markup .markupLine [] rest else '<' :: '!' :: '-' :: '-' :: rest
  | .code m, _, '-' :: '-' :: '>' :: rest =>
    if m then skip markup .markupLine [] rest else '-' :: '-' :: '>' :: rest
  | .code m, _, c :: rest =>
    if isBlank c then skip markup (.code (m && (isAsciiBlank c || isLineBreak c))) [] rest else c :: rest
  | .line, _, [] => []
  | .line, _, c :: rest => if endsLine c then skip markup (.code markup) [] rest else skip markup .line [] rest
  | .markupLine, _, [] => []
  | .markupLine, _, c :: rest =>
    if isLineBreak c then skip markup (.code markup) [] rest else skip markup .markupLine [] rest
  | .block, _, '*' :: '/' :: rest => skip markup (.code markup) [] rest
  | .block, start, _ :: rest => skip markup .block start rest
  | .block, start, [] => start

def skipGap (markup : Bool) (cs : List Char) : List Char := skip markup (.code markup) [] cs

/-! ## Escapes -/

/-- The length of what follows `\u`: four hexadecimal digits or any number of them in braces. -/
def unicodeEscapeLength? : List Char → Option Nat
  | '\x7b' :: rest =>
    let ds := rest.takeWhile isHexDigit
    if !ds.isEmpty && (rest.drop ds.length).head? = some '\x7d' then some (ds.length + 2) else none
  | a :: b :: c :: d :: _ =>
    if isHexDigit a && isHexDigit b && isHexDigit c && isHexDigit d then some 4 else none
  | _ => none

/-- The length of an escape sequence after its backslash. -/
def escapeLength? : List Char → Option Nat
  | [] => none
  | 'x' :: a :: b :: _ => if isHexDigit a && isHexDigit b then some 3 else none
  | 'x' :: _ => none
  | 'u' :: rest => (unicodeEscapeLength? rest).map (· + 1)
  | c :: rest =>
    if isOctalDigit c then some (1 + ((rest.take 2).takeWhile isOctalDigit).length)
    else if (c = '\r' || c = '?') && (rest.head?.map isLineBreak).getD false then some 2
    else some 1

/-! ## Names -/

/-- The length of the name in front of a text, `count` characters of it having been passed; the next `skipped`
characters belong to an escape sequence. -/
def nameLength : Nat → Nat → List Char → Nat
  | _, count, [] => count
  | skipped + 1, count, _ :: rest => nameLength skipped (count + 1) rest
  | 0, count, c :: rest =>
    if c = '\\' then
      match rest with
      | 'u' :: digits =>
        match unicodeEscapeLength? digits with
        | some n => nameLength (n + 1) (count + 1) rest
        | none => count
      | _ => count
    else if (if count = 0 then isNameStart c else isNamePart c) then nameLength 0 (count + 1) rest
    else count

/-! ## Numbers

Lengths again, zero where nothing of the kind stands in front. -/

/-- The length of digits of a class with single underscores between them. -/
def digitsLength (isDigit : Char → Bool) : List Char → Nat
  | [] => 0
  | c :: rest => if isDigit c then more rest 1 else 0
where
  /-- Further digits, each perhaps after an underscore. -/
  more : List Char → Nat → Nat
    | '_' :: c :: rest, count => if isDigit c then more rest (count + 2) else count
    | c :: rest, count => if isDigit c then more rest (count + 1) else count
    | [], count => count

def decimalLength (cs : List Char) : Nat := digitsLength Unicode.isAsciiDigit cs

def exponentLength : List Char → Nat
  | e :: rest =>
    if e = 'e' || e = 'E' then
      let sign := if rest.head? = some '+' || rest.head? = some '-' then 1 else 0
      let n := decimalLength (rest.drop sign)
      if n = 0 then 0 else 1 + sign + n
    else 0
  | [] => 0

/-- The length of an integer that may carry a fraction: a lone zero, or digits after at most one leading
zero. -/
def wholeLength : List Char → Nat
  | '0' :: d :: rest => if '1' ≤ d ∧ d ≤ '9' then digitsLength.more Unicode.isAsciiDigit rest 2 else 1
  | cs => decimalLength cs

def radixDigit? (c : Char) : Option (Char → Bool) :=
  if c = 'x' || c = 'X' then some isHexDigit
  else if c = 'o' || c = 'O' then some isOctalDigit
  else if c = 'b' || c = 'B' then some (fun d => d = '0' || d = '1')
  else none

def radixLength : List Char → Nat
  | '0' :: r :: rest =>
    let n := match radixDigit? r with
      | some isDigit => digitsLength isDigit rest
      | none => 0
    if n = 0 then 0 else n + 2
  | _ => 0

/-- With the `n` after an integer of a known length. -/
def bigintLength (cs : List Char) (n : Nat) : Nat := if n ≠ 0 && (cs.drop n).head? = some 'n' then n + 1 else 0

/-- A decimal number with digits before its point, or with an exponent. -/
def fractionLength (cs : List Char) : Nat :=
  let w := wholeLength cs
  if w = 0 then 0
  else match cs.drop w with
    | '.' :: rest =>
      let d := decimalLength rest
      w + 1 + d + exponentLength (rest.drop d)
    | rest =>
      let e := exponentLength rest
      if e = 0 then 0 else w + e

/-- A decimal number that begins with its point. -/
def pointLength : List Char → Nat
  | '.' :: rest =>
    let d := decimalLength rest
    if d = 0 then 0 else 1 + d + exponentLength (rest.drop d)
  | _ => 0

/-- The length of the longest number that starts here. -/
def numberLength (cs : List Char) : Nat :=
  [radixLength cs, bigintLength cs (radixLength cs), fractionLength cs, pointLength cs, decimalLength cs,
    bigintLength cs (decimalLength cs)].foldl max 0

/-! ## Strings -/

/-- The length of a block comment, `count` characters of it having been passed. -/
def blockCommentLength? (count : Nat) : List Char → Option Nat
  | '*' :: '/' :: _ => some (count + 2)
  | _ :: rest => blockCommentLength? (count + 1) rest
  | [] => none

/-- The length of a comment that stands in front. -/
def commentLength? : List Char → Option Nat
  | '/' :: '/' :: rest => some (2 + (rest.takeWhile fun c => !endsLine c).length)
  | '/' :: '*' :: rest => blockCommentLength? 2 rest
  | _ => none

/-- The length of a string whose opening quote has been passed, its closing quote counted; `skipped` as for names. A line
break ends the text of a string, so that only blanks, comments and the closing quote may follow it; the text goes on right
after a comment. -/
def stringLength? (quote : Char) : Nat → Nat → List Char → Option Nat
  | _, _, [] => none
  | skipped + 1, count, _ :: rest => stringLength? quote skipped (count + 1) rest
  | 0, count, c :: rest =>
    if c = '\\' then
      match escapeLength? rest with
      | some n => stringLength? quote n (count + 1) rest
      | none => none
    else if c = quote then some (count + 1)
    else if c = '\n' || c = '\r' then
      let blanks := (rest.takeWhile isBlank).length
      let after := rest.drop blanks
      if after.head? = some quote then some (count + blanks + 2)
      else
        match commentLength? after with
        | some n => stringLength? quote (blanks + n) (count + 1) rest
        | none => none
    else stringLength? quote 0 (count + 1) rest

/-! ## Regular expressions -/

/-- The length of the pattern of a regular expression, which ends before a slash or the end of the line. `count` characters
have been passed. -/
def patternLength? (inClass : Bool) (count : Nat) : List Char → Option Nat
  | '\\' :: c :: rest => if c = '\n' then none else patternLength? inClass (count + 2) rest
  | c :: rest =>
    if c = '\\' then none
    else if inClass then (if c = '\n' then none else patternLength? (c ≠ ']') (count + 1) rest)
    else if c = '/' || c = '\n' then (if count = 0 then none else some count)
    else patternLength? (c = '[') (count + 1) rest
  | [] => none

/-! ## Punctuators -/

/-- Longer ones first. -/
def punctuators : List (List Char) :=
  [">>>=", "...", "===", "!==", "**=", "<<=", ">>=", ">>>", "&&=", "||=", "??=", "=>", "==", "!=", "<=", ">=", "&&",
   "||", "??", "?.", "++", "--", "+=", "-=", "*=", "/=", "%=", "&=", "|=", "^=", "<<", ">>", "**", "\x7b", "\x7d",
   "(", ")", "[", "]", ";", ",", "<", ">", "+", "-", "*", "/", "%", "&", "|", "^", "!", "~", "?", ":", "=", "@",
   "."].map String.toList

/-- A chain link before a digit is the question mark of a conditional. -/
def punctuator? (cs : List Char) : Option (List Char) :=
  match cs with
  | '?' :: '.' :: d :: _ =>
    if Unicode.isAsciiDigit d then some ['?'] else some ['?', '.']
  | cs => punctuators.find? fun p => p.isPrefixOf cs

/-! ## The next token -/

/-- The text between two points of one text, the second given by what follows it. -/
def slice (start rest : List Char) : String := String.ofList (start.take (start.length - rest.length))

/-- The first characters of a text as a token, if there are any, and the text after them. -/
def cut (token : String → Token) (length : Nat) (cs : List Char) : Token × List Char :=
  if length = 0 then (.unknown, cs.drop 1) else (token (String.ofList (cs.take length)), cs.drop length)

/-- The token at the front of a text without blanks in front, and the text after it. -/
def nextToken (cs : List Char) : Token × List Char :=
  match cs with
  | [] => (.ended, [])
  | c :: rest =>
    if c = '"' || c = '\'' then cut .string (((stringLength? c 0 0 rest).map (· + 1)).getD 0) cs
    else if c = '\x60' then (.template, rest)
    else if Unicode.isAsciiDigit c || (c = '.' && (rest.head?.map Unicode.isAsciiDigit).getD false) then
      cut .number (numberLength cs) cs
    else if c = '#' then
      let n := nameLength 0 0 rest
      if n = 0 then (.unknown, rest) else cut .privateName n rest
    else
      match punctuator? cs with
      | some p => (.punct (String.ofList p), cs.drop p.length)
      | none => cut .word (nameLength 0 0 cs) cs

/-- Words that name nothing. -/
def isReserved (word : String) : Bool :=
  ["break", "case", "catch", "class", "const", "continue", "debugger", "default", "delete", "do", "else", "export",
   "extends", "false", "finally", "for", "function", "if", "import", "in", "instanceof", "new", "null", "return",
   "super", "switch", "this", "throw", "true", "try", "typeof", "var", "void", "while", "with"].contains word

/-- Can an operator follow this token, or the statement end after it? -/
def Token.endsOperand : Token → Bool
  | .word w =>
    !isReserved w ||
      ["this", "super", "null", "true", "false", "export", "return", "break", "continue", "debugger"].contains w
  | .name _ | .privateName _ | .number _ | .string _ | .template => true
  | .punct p => p = ")" || p = "]" || p = "\x7d" || p = "++" || p = "--"
  | .ended | .unknown => false

end Graft.Source
