import Graft.Text.Unicode
import Graft.Toml.Value
/-!
# Reading TOML

A document is read as a whole or refused. It is a list of headers and of keys with values, one a line.
-/

namespace Graft.Toml

abbrev Reading (α : Type) := StateT (List Char) Option α

namespace Reading

def peek : Reading (Option Char) := do return (← get).head?

def require {α : Type} : Option α → Reading α
  | some a => pure a
  | none => failure

def guardThat (b : Bool) : Reading Unit := if b then pure () else failure

/-- Takes the character that has to be here. -/
def next : Reading Char := do
  match ← get with
  | c :: rest =>
    set rest
    return c
  | [] => failure

/-- Takes these characters if they are next. -/
def accept (word : String) : Reading Bool := do
  let cs ← get
  if word.toList.isPrefixOf cs then
    set (cs.drop word.length)
    return true
  else return false

def expect (word : String) : Reading Unit := do guardThat (← accept word)

/-- Takes characters as long as they pass a test. -/
def takeWhile (test : Char → Bool) : Reading (List Char) := do
  let cs ← get
  set (cs.dropWhile test)
  return cs.takeWhile test

def blanks : Reading Unit := do
  let _ ← takeWhile fun c => c = ' ' || c = '\t'

/-- Takes a line break. -/
def lineBreak : Reading Bool := do return (← accept "\n") || (← accept "\r\n")

/-- May a character stand in a comment or a string on one line? -/
def isPrintable (c : Char) : Bool := c = '\t' || (32 ≤ c.toNat && c.toNat ≠ 127)

/-- Takes a comment. -/
def comment : Reading Unit := do
  if ← accept "#" then
    let _ ← takeWhile isPrintable

/-- The end of a line: blanks, perhaps a comment, then a line break or the end. -/
def lineEnd : Reading Unit := do
  blanks
  comment
  if (← get).isEmpty then return ()
  else guardThat (← lineBreak)

/-- Blanks, comments and line breaks. -/
def gap : Nat → Reading Unit
  | 0 => pure ()
  | fuel + 1 => do
    blanks
    comment
    if ← lineBreak then gap fuel

/-! ## Strings -/

def hexDigit? (c : Char) : Option Nat :=
  if c.isDigit then some (c.toNat - 48)
  else if 'a' ≤ c ∧ c ≤ 'f' then some (c.toNat - 87)
  else if 'A' ≤ c ∧ c ≤ 'F' then some (c.toNat - 55)
  else none

/-- The character that a fixed number of hexadecimal digits name. -/
def codePoint : Nat → Nat → Reading Char
  | 0, code => do
    guardThat code.isValidChar
    return Char.ofNat code
  | count + 1, code => do
    let d ← require (hexDigit? (← next))
    codePoint count (code * 16 + d)

/-- The character that an escape names, after its backslash. -/
def escape : Reading Char := do
  match ← next with
  | 'b' => return '\x08'
  | 't' => return '\t'
  | 'n' => return '\n'
  | 'f' => return '\x0c'
  | 'r' => return '\r'
  | '"' => return '"'
  | '\\' => return '\\'
  | 'u' => codePoint 4 0
  | 'U' => codePoint 8 0
  | _ => failure

/-- A string with escapes on one line, after its opening quote. -/
def basic : Nat → List Char → Reading String
  | 0, _ => failure
  | fuel + 1, acc => do
    match ← next with
    | '"' => return String.ofList acc.reverse
    | '\\' => do basic fuel ((← escape) :: acc)
    | c =>
      guardThat (isPrintable c)
      basic fuel (c :: acc)

/-- A string without escapes on one line, after its opening quote. -/
def literal : Reading String := do
  let text ← takeWhile fun c => isPrintable c && c ≠ '\''
  expect "'"
  return String.ofList text

/-- Closing quotes of a string over several lines; one or two more of them belong to the text. -/
def closing (quotes : String) (quote : Char) : Reading (Option (List Char)) := do
  if ← accept quotes then
    let more ← takeWhile (· = quote)
    guardThat (more.length ≤ 2)
    return some more
  else return none

/-- After a backslash: blanks up to a line break, and everything blank after it. -/
def continuation (fuel : Nat) : Reading Bool := do
  let cs ← get
  blanks
  if ← lineBreak then
    let rec skip : Nat → Reading Unit
      | 0 => pure ()
      | fuel + 1 => do
        blanks
        if ← lineBreak then skip fuel
    skip fuel
    return true
  else
    set cs
    return false

/-- A string with escapes over several lines, after its opening quotes. -/
def basicLines : Nat → List Char → Reading String
  | 0, _ => failure
  | fuel + 1, acc => do
    match ← closing "\"\"\"" '"' with
    | some more => return String.ofList (acc.reverse ++ more)
    | none =>
      if ← lineBreak then basicLines fuel ('\n' :: acc)
      else
        match ← next with
        | '\\' =>
          if ← continuation fuel then basicLines fuel acc else do basicLines fuel ((← escape) :: acc)
        | c =>
          guardThat (isPrintable c)
          basicLines fuel (c :: acc)

/-- A string without escapes over several lines, after its opening quotes. -/
def literalLines : Nat → List Char → Reading String
  | 0, _ => failure
  | fuel + 1, acc => do
    match ← closing "'''" '\'' with
    | some more => return String.ofList (acc.reverse ++ more)
    | none =>
      if ← lineBreak then literalLines fuel ('\n' :: acc)
      else
        let c ← next
        guardThat (isPrintable c)
        literalLines fuel (c :: acc)

/-- A string of any kind, if one begins here. -/
def string? (fuel : Nat) : Reading (Option String) := do
  if ← accept "\"\"\"" then
    let _ ← lineBreak
    some <$> basicLines fuel []
  else if ← accept "\"" then some <$> basic fuel []
  else if ← accept "'''" then
    let _ ← lineBreak
    some <$> literalLines fuel []
  else if ← accept "'" then some <$> literal
  else return none

/-! ## Keys -/

def isKeyPart (c : Char) : Bool := c.isAlphanum || c = '_' || c = '-'

def simpleKey (fuel : Nat) : Reading String := do
  if ← accept "\"" then basic fuel []
  else if ← accept "'" then literal
  else
    let name ← takeWhile isKeyPart
    guardThat !name.isEmpty
    return String.ofList name

/-- Keys with dots between them. -/
def key : Nat → Reading (List String)
  | 0 => failure
  | fuel + 1 => do
    let first ← simpleKey fuel
    blanks
    if ← accept "." then
      blanks
      return first :: (← key fuel)
    else return [first]

/-! ## Dates and times -/

/-- A fixed number of decimal digits. -/
def digits (count : Nat) : Reading Nat := do
  let cs ← get
  let ds := cs.take count
  guardThat (ds.length = count && ds.all Char.isDigit)
  set (cs.drop count)
  return ds.foldl (fun n c => n * 10 + (c.toNat - 48)) 0

def daysIn (year month : Nat) : Nat :=
  if month = 2 then if year % 4 = 0 && (year % 100 ≠ 0 || year % 400 = 0) then 29 else 28
  else if month = 4 || month = 6 || month = 9 || month = 11 then 30 else 31

/-- A number with zeros in front up to a width. -/
def padded (width n : Nat) : String :=
  let ds := (toString n).toList
  String.ofList (List.replicate (width - ds.length) '0' ++ ds)

def date : Reading String := do
  let year ← digits 4
  expect "-"
  let month ← digits 2
  expect "-"
  let day ← digits 2
  guardThat (1 ≤ month && month ≤ 12 && 1 ≤ day && day ≤ daysIn year month)
  return padded 4 year ++ "-" ++ padded 2 month ++ "-" ++ padded 2 day

/-- The digits of a fraction of a second: nine at most, without zeros at the end. -/
def fraction (ds : List Char) : String :=
  let kept := ((ds.take 9).reverse.dropWhile (· = '0')).reverse
  if kept.isEmpty then "" else String.ofList ('.' :: kept)

def time : Reading String := do
  let hour ← digits 2
  expect ":"
  let minute ← digits 2
  expect ":"
  let second ← digits 2
  guardThat (hour ≤ 23 && minute ≤ 59 && second ≤ 60)
  let part ← if ← accept "." then do
      let ds ← takeWhile Char.isDigit
      guardThat !ds.isEmpty
      pure (fraction ds)
    else pure ""
  return padded 2 hour ++ ":" ++ padded 2 minute ++ ":" ++ padded 2 second ++ part

/-- An offset from universal time, if one stands here. -/
def offset : Reading String := do
  if (← accept "Z") || (← accept "z") then return "Z"
  else
    let sign ← if ← accept "+" then pure "+" else if ← accept "-" then pure "-" else pure ""
    if sign.isEmpty then return ""
    else
      let hour ← digits 2
      expect ":"
      let minute ← digits 2
      guardThat (hour ≤ 23 && minute ≤ 59)
      return sign ++ padded 2 hour ++ ":" ++ padded 2 minute

/-- A date, a time or both. -/
def dateTime : Reading Value := do
  match ← get with
  | _ :: _ :: ':' :: _ => return .dateTime (← time)
  | _ =>
    let day ← date
    match ← get with
    | 'T' :: rest | 't' :: rest =>
      set rest
      return .dateTime (day ++ "T" ++ (← time) ++ (← offset))
    | ' ' :: d :: rest =>
      if d.isDigit then
        set (d :: rest)
        return .dateTime (day ++ "T" ++ (← time) ++ (← offset))
      else return .dateTime day
    | _ => return .dateTime day

/-- Does a date or a time begin here? -/
def startsDateTime (cs : List Char) : Bool :=
  match cs with
  | a :: b :: ':' :: _ => a.isDigit && b.isDigit
  | a :: b :: c :: d :: '-' :: _ => a.isDigit && b.isDigit && c.isDigit && d.isDigit
  | _ => false

/-! ## Numbers -/

/-- The digits of a number in which underscores stand between digits only. -/
def grouped? (isDigit : Char → Bool) : List Char → Option (List Char)
  | [] => none
  | [c] => if isDigit c then some [c] else none
  | c :: '_' :: rest => if isDigit c then (grouped? isDigit rest).map (c :: ·) else none
  | c :: rest => if isDigit c then (grouped? isDigit rest).map (c :: ·) else none

/-- The number that digits denote in a base. -/
def inBase (base : Nat) (ds : List Char) : Nat := ds.foldl (fun n c => n * base + (hexDigit? c).getD 0) 0

def signed (negative : Bool) (n : Nat) : Int := if negative then -(n : Int) else n

/-- An integer of 64 bits. -/
def integer? (n : Int) : Option Value := if -(twoTo 63) ≤ n && n < twoTo 63 then some (.integer n) else none

/-- Decimal digits of a whole part: no zero in front of others. -/
def whole? (cs : List Char) : Option (List Char) := do
  let ds ← grouped? Char.isDigit cs
  if 1 < ds.length && ds.head? = some '0' then none else some ds

/-- The exponent that follows `e`. -/
def exponent? (cs : List Char) : Option Int :=
  match cs with
  | '+' :: rest => (grouped? Char.isDigit rest).map fun ds => inBase 10 ds
  | '-' :: rest => (grouped? Char.isDigit rest).map fun ds => -(inBase 10 ds : Int)
  | rest => (grouped? Char.isDigit rest).map fun ds => inBase 10 ds

/-- A number without its sign. -/
def number? (negative : Bool) (cs : List Char) : Option Value := do
  let isExponent (c : Char) : Bool := c = 'e' || c = 'E'
  let mantissa := cs.takeWhile fun c => !isExponent c
  let exponentPart := cs.dropWhile fun c => !isExponent c
  let front := mantissa.takeWhile (· ≠ '.')
  let back := mantissa.dropWhile (· ≠ '.')
  let ds ← whole? front
  if back.isEmpty && exponentPart.isEmpty then integer? (signed negative (inBase 10 ds))
  else
    let decimals ← if back.isEmpty then some [] else grouped? Char.isDigit back.tail
    let e ← if exponentPart.isEmpty then some 0 else exponent? exponentPart.tail
    let x := Double.ofDecimal negative (inBase 10 (ds ++ decimals)) (e - decimals.length)
    if x = Double.infinity false then none else some (.float x)

/-- The value that a word of number characters stands for. -/
def numeric? (word : List Char) : Option Value :=
  let unsigned (negative : Bool) (cs : List Char) : Option Value :=
    match cs with
    | ['i', 'n', 'f'] => some (.float (Double.infinity negative))
    | ['n', 'a', 'n'] => some (.float Double.nan)
    | cs => number? negative cs
  match word with
  | '+' :: rest => unsigned false rest
  | '-' :: rest => unsigned true rest
  | '0' :: 'x' :: rest => (grouped? (fun c => (hexDigit? c).isSome) rest).bind fun ds => integer? (inBase 16 ds)
  | '0' :: 'o' :: rest => (grouped? (fun c => '0' ≤ c && c ≤ '7') rest).bind fun ds => integer? (inBase 8 ds)
  | '0' :: 'b' :: rest => (grouped? (fun c => c = '0' || c = '1') rest).bind fun ds => integer? (inBase 2 ds)
  | cs => unsigned false cs

def isNumberPart (c : Char) : Bool := c.isAlphanum || c = '_' || c = '+' || c = '-' || c = '.'

/-! ## Values -/

mutual
def value : Nat → Reading Value
  | 0 => failure
  | fuel + 1 => do
    match ← string? fuel with
    | some text => return .string text
    | none =>
      if ← accept "[" then array fuel []
      else if ← accept "\x7b" then
        blanks
        if ← accept "\x7d" then return .table .inline [] else inlineTable fuel []
      else if startsDateTime (← get) then dateTime
      else
        let word ← takeWhile isNumberPart
        if word = "true".toList then return .boolean true
        else if word = "false".toList then return .boolean false
        else require (numeric? word)

/-- The items of an array, after its opening bracket or a comma. -/
def array : Nat → List Value → Reading Value
  | 0, _ => failure
  | fuel + 1, items => do
    gap fuel
    if ← accept "]" then return .array items.reverse
    else
      let item ← value fuel
      gap fuel
      if ← accept "," then array fuel (item :: items)
      else
        expect "]"
        return .array (item :: items).reverse

/-- The entries of a table between braces, after the opening brace or a comma. -/
def inlineTable : Nat → Entries → Reading Value
  | 0, _ => failure
  | fuel + 1, entries => do
    blanks
    let path ← key fuel
    expect "="
    blanks
    let v ← value fuel
    let entries ← require (Entries.insert path v entries)
    blanks
    if ← accept "," then inlineTable fuel entries
    else
      expect "\x7d"
      return .table .inline entries
end

/-! ## Documents -/

/-- What has been read, and the header that keys belong to. -/
structure Document where
  root : Entries
  path : List String

/-- A header between single or double brackets. -/
def header (fuel : Nat) (d : Document) : Reading Document := do
  expect "["
  let element ← accept "["
  blanks
  let path ← key fuel
  expect (if element then "]]" else "]")
  lineEnd
  let last ← require path.getLast?
  let opened := if element then Entries.openElement last else Entries.openTable last
  return { root := ← require (Entries.alter path.dropLast opened d.root), path := path }

/-- A key with its value. -/
def entry (fuel : Nat) (d : Document) : Reading Document := do
  let path ← key fuel
  expect "="
  blanks
  let v ← value fuel
  lineEnd
  return { d with root := ← require (Entries.alter d.path (Entries.insert path v) d.root) }

/-- The lines of a document. -/
def lines : Nat → Document → Reading Document
  | 0, _ => failure
  | fuel + 1, d => do
    gap fuel
    blanks
    match ← peek with
    | none => return d
    | some '[' => do lines fuel (← header fuel d)
    | some _ => do lines fuel (← entry fuel d)

end Reading

/-- The table that a document holds. A byte-order mark in front is skipped. -/
def read? (text : String) : Option Value := do
  let cs := match text.toList with
    | '\uFEFF' :: rest => rest
    | cs => cs
  let (d, _) ← (Reading.lines (2 * cs.length + 4) ⟨[], []⟩).run cs
  return .table .header d.root

end Graft.Toml
