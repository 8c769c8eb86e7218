import Graft.Source.Character
import Graft.Json.Basic
/-!
# Values of literals, and JSON as source

`decodeString` gives the value of a quoted string literal: escapes become UTF-16 units, a high and a low
surrogate in a row become one character, and any other surrogate U+FFFD. `decodeNumber?` gives the value
of a numeric literal, digit by digit for the radix forms. `ofJson` writes JSON data as an expression, with
bare keys where a key is a name.
-/

namespace Graft.Source

/-! ## Strings -/

def replacement : Char := '\uFFFD'

/-- A character for a code point, U+FFFD if there is none. -/
def charOf (code : Nat) : Char := if Nat.isValidChar code then Char.ofNat code else replacement

/-- Decoded text, last character first, and a high surrogate that waits for its other half. -/
structure Decoded where
  reversed : List Char
  pending : Option Nat

namespace Decoded

def flush (d : Decoded) : Decoded :=
  match d.pending with
  | some _ => ⟨replacement :: d.reversed, none⟩
  | none => d

def pushChar (d : Decoded) (c : Char) : Decoded := let d := d.flush; { d with reversed := c :: d.reversed }

/-- Adds a UTF-16 unit or a code point. -/
def push (d : Decoded) (code : Nat) : Decoded :=
  if 0xD800 ≤ code ∧ code < 0xDC00 then { d.flush with pending := some code }
  else if 0xDC00 ≤ code ∧ code < 0xE000 then
    match d.pending with
    | some high => ⟨charOf (0x10000 + (high - 0xD800) * 0x400 + (code - 0xDC00)) :: d.reversed, none⟩
    | none => ⟨replacement :: d.reversed, none⟩
  else d.pushChar (charOf code)

def text (d : Decoded) : String := String.ofList d.flush.reversed.reverse

end Decoded

/-- Up to `count` hexadecimal digits; `none` if there are fewer, with the text after those there are. -/
def hexDigits : Nat → Nat → List Char → Option Nat × List Char
  | 0, value, cs => (some value, cs)
  | count + 1, value, c :: rest =>
    match hexValue? c with
    | some d => hexDigits count (value * 16 + d) rest
    | none => (none, c :: rest)
  | _ + 1, _, [] => (none, [])

/-- The number that hexadecimal digits, perhaps after a plus sign, denote, if it fits 32 bits. -/
def bracedCode? (digits : List Char) : Option Nat :=
  let digits := match digits with
    | '+' :: rest => rest
    | ds => ds
  if digits.isEmpty then none
  else
    (digits.foldlM (fun n c => (hexValue? c).map (n * 16 + ·)) 0).bind fun n =>
      if n < twoTo 32 then some n else none

def octalMore : Nat → Nat → List Char → Nat × List Char
  | 0, value, cs => (value, cs)
  | count + 1, value, c :: rest =>
    if isOctalDigit c then octalMore count (value * 8 + (c.toNat - '0'.toNat)) rest else (value, c :: rest)
  | _ + 1, value, [] => (value, [])

/-- What an escape sequence stands for, and the text after it; a line continuation stands for nothing. -/
def escapeCode : List Char → Option Nat × List Char
  | [] => (none, [])
  | c :: rest =>
    if c = 'n' then (some 10, rest)
    else if c = 't' then (some 9, rest)
    else if c = 'r' then (some 13, rest)
    else if c = 'b' then (some 8, rest)
    else if c = 'f' then (some 12, rest)
    else if c = 'v' then (some 11, rest)
    else if c = 'x' then hexDigits 2 0 rest
    else if c = 'u' then
      match rest with
      | '\x7b' :: rest => (bracedCode? (rest.takeWhile (· ≠ '\x7d')), (rest.dropWhile (· ≠ '\x7d')).drop 1)
      | rest => hexDigits 4 0 rest
    else if isOctalDigit c then
      let (value, rest) := octalMore (if c ≤ '3' then 2 else 1) (c.toNat - '0'.toNat) rest
      (some value, rest)
    else if isLineBreak c then (none, rest)
    else if c = '\r' then
      match rest with
      | '\n' :: rest => (none, rest)
      | rest => (none, rest)
    else (some c.toNat, rest)

def decodeChars : Nat → Decoded → List Char → Decoded
  | 0, d, _ => d
  | _ + 1, d, [] => d
  | _ + 1, d, ['\\'] => d
  | fuel + 1, d, c :: rest =>
    if c = '\\' then
      let (code, rest) := escapeCode rest
      match code with
      | some code => decodeChars fuel (d.push code) rest
      | none => decodeChars fuel d rest
    else decodeChars fuel (d.pushChar c) rest

/-- The text between the quotes of a literal; a text too short for quotes stands for itself. -/
def unquoted (raw : String) : List Char :=
  if raw.utf8ByteSize < 2 then raw.toList else raw.toList.tail.dropLast

/-- The value of a string literal, quotes included. -/
def decodeString (raw : String) : String :=
  let inner := unquoted raw
  (decodeChars (inner.length + 1) ⟨[], none⟩ inner).text

/-! ## Numbers -/

def toLower (c : Char) : Char := if 'A' ≤ c ∧ c ≤ 'Z' then Char.ofNat (c.toNat + 32) else c

def digitValue? (radix : Nat) (c : Char) : Option Nat :=
  (hexValue? c).bind fun d => if d < radix then some d else none

/-- Digits of a radix, summed up as doubles from the left. -/
def radixValue? (radix : Nat) (digits : List Char) : Option Double :=
  if digits.isEmpty then none
  else digits.foldlM (fun x c => (digitValue? radix c).map (x.mulAdd radix ·)) Double.zero

/-- A decimal number: sign, digits with a point, exponent; or the names of infinity and NaN. The text is
in lower case. -/
def decimalValue? (cs : List Char) : Option Double :=
  let (negative, body) := match cs with
    | '-' :: rest => (true, rest)
    | '+' :: rest => (false, rest)
    | cs => (false, cs)
  if body = "inf".toList || body = "infinity".toList then some (Double.infinity negative)
  else if body = "nan".toList then some Double.nan
  else
    let whole := body.takeWhile Unicode.isAsciiDigit
    let rest := body.dropWhile Unicode.isAsciiDigit
    let (fraction, rest) := match rest with
      | '.' :: rest => (rest.takeWhile Unicode.isAsciiDigit, rest.dropWhile Unicode.isAsciiDigit)
      | rest => ([], rest)
    if whole.isEmpty && fraction.isEmpty then none
    else match rest with
      | [] => some (Double.ofParts negative whole fraction 0)
      | 'e' :: rest =>
        let (minus, digits) := match rest with
          | '-' :: ds => (true, ds)
          | '+' :: ds => (false, ds)
          | ds => (false, ds)
        if digits.isEmpty || !digits.all Unicode.isAsciiDigit then none
        else
          let e : Int := Double.digitsValue digits
          some (Double.ofParts negative whole fraction (if minus then -e else e))
      | _ => none

/-- The value of a numeric literal. A BigInt has none. -/
def decodeNumber? (raw : String) : Option Double :=
  let cleaned := raw.toList.filter (· ≠ '_')
  if cleaned.getLast? = some 'n' then none
  else
    match cleaned.map toLower with
    | '0' :: 'x' :: digits => radixValue? 16 digits
    | '0' :: 'o' :: digits => radixValue? 8 digits
    | '0' :: 'b' :: digits => radixValue? 2 digits
    | lower =>
      match lower with
      | '0' :: d :: rest =>
        if (d :: rest).all isOctalDigit then radixValue? 8 (d :: rest) else decimalValue? lower
      | lower => decimalValue? lower

/-! ## Names and data -/

/-- Can this text be written as a bare property key? -/
def isIdentifierName (name : String) : Bool :=
  match name.toList with
  | [] => false
  | c :: rest =>
    (c = '$' || c = '_' || Unicode.isAlphabetic c) &&
      rest.all fun c => c = '$' || c = '_' || Unicode.isAlphanumeric c

mutual
/-- A JSON value as an expression. -/
def ofJson : Json → String
  | .null => "null"
  | .bool b => if b then "true" else "false"
  | .int n => toString n
  | .double x => x.toJson
  | .string s => Json.quote s
  | .array items => "[" ++ ofItems items ++ "]"
  | .object [] => "\x7b\x7d"
  | .object ((key, value) :: rest) => "\x7b " ++ keyText key ++ ": " ++ ofJson value ++ ofMembers rest ++ " \x7d"

def ofItems : List Json → String
  | [] => ""
  | [j] => ofJson j
  | j :: rest => ofJson j ++ ", " ++ ofItems rest

def ofMembers : List (String × Json) → String
  | [] => ""
  | (key, value) :: rest => ", " ++ keyText key ++ ": " ++ ofJson value ++ ofMembers rest

/-- A key, bare if it is a name. -/
def keyText (key : String) : String := if isIdentifierName key then key else Json.quote key
end

end Graft.Source
