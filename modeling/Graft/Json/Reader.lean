import Graft.Json.Basic
/-!
# Reading JSON text

`Json.read` accepts exactly one JSON value with blanks around it. The reader's depth is bounded by
the length of the text.
-/

namespace Graft
namespace Json

def isBlank (c : Char) : Bool := c = ' ' || c = '\n' || c = '\t' || c = '\r'

def skipBlanks (cs : List Char) : List Char := cs.dropWhile isBlank

def hexValue? (c : Char) : Option Nat :=
  if '0' ≤ c ∧ c ≤ '9' then some (c.toNat - '0'.toNat)
  else if 'a' ≤ c ∧ c ≤ 'f' then some (c.toNat - 'a'.toNat + 10)
  else if 'A' ≤ c ∧ c ≤ 'F' then some (c.toNat - 'A'.toNat + 10)
  else none

def hex4? : List Char → Option (Nat × List Char)
  | a :: b :: c :: d :: rest => do
    let a ← hexValue? a
    let b ← hexValue? b
    let c ← hexValue? c
    let d ← hexValue? d
    some (((a * 16 + b) * 16 + c) * 16 + d, rest)
  | _ => none

def isHighSurrogate (n : Nat) : Bool := 0xD800 ≤ n && n < 0xDC00

def isLowSurrogate (n : Nat) : Bool := 0xDC00 ≤ n && n < 0xE000

/-- The character of a surrogate pair. -/
def joinSurrogates (high low : Nat) : Char :=
  Char.ofNat (0x10000 + (high - 0xD800) * 0x400 + (low - 0xDC00))

/-- What follows `\u`: one character, written with one escape or, beyond the basic plane, with two. -/
def unicodeEscape? (cs : List Char) : Option (Char × List Char) := do
  let (n, rest) ← hex4? cs
  if isHighSurrogate n then
    match rest with
    | '\\' :: 'u' :: rest => do
      let (m, rest) ← hex4? rest
      if isLowSurrogate m then some (joinSurrogates n m, rest) else none
    | _ => none
  else if isLowSurrogate n then none
  else some (Char.ofNat n, rest)

/-- The rest of a string after its opening quote. -/
def stringBody : Nat → List Char → List Char → Option (String × List Char)
  | 0, _, _ => none
  | _ + 1, _, [] => none
  | fuel + 1, acc, c :: rest =>
    if c = '"' then some (String.ofList acc.reverse, rest)
    else if c = '\\' then
      match rest with
      | 'n' :: rest => stringBody fuel ('\n' :: acc) rest
      | 't' :: rest => stringBody fuel ('\t' :: acc) rest
      | 'r' :: rest => stringBody fuel ('\r' :: acc) rest
      | 'b' :: rest => stringBody fuel ('\x08' :: acc) rest
      | 'f' :: rest => stringBody fuel ('\x0c' :: acc) rest
      | 'u' :: rest =>
        match unicodeEscape? rest with
        | some (c, rest) => stringBody fuel (c :: acc) rest
        | none => none
      | c :: rest => if c = '"' || c = '\\' || c = '/' then stringBody fuel (c :: acc) rest else none
      | [] => none
    else if c.toNat < 32 then none
    else stringBody fuel (c :: acc) rest

/-! ## Numbers -/

/-- The significand of a number: its leading digits as far as they fit 64 bits, and how many were left. -/
def significand (start : Nat) (digits : List Char) : Nat × Nat :=
  match digits with
  | [] => (start, 0)
  | d :: rest =>
    let next := start * 10 + (d.toNat - '0'.toNat)
    if next < twoTo 64 then significand next rest else (start, rest.length + 1)

/-- Scales by powers of ten that are themselves rounded, at most `10^308` at a time; `none` beyond the
range. -/
def scaleByTen (f : Double) (exponent : Int) : Nat → Option Double
  | 0 => some f
  | fuel + 1 =>
    if exponent.natAbs ≤ 308 then
      let power := Double.ofNat (tenTo exponent.natAbs)
      let scaled := if 0 ≤ exponent then f.mul power else f.div power
      if scaled.isFinite then some scaled else none
    else if f.magnitude = 0 then some f
    else if 0 ≤ exponent then none
    else scaleByTen (f.div (Double.ofNat (tenTo 308))) (exponent + 308) fuel

/-- A number from its parts. Digits beyond 64 bits of significand only count as places. -/
def numberOf (negative : Bool) (whole fraction : List Char) (exponent : Option Int) : Option Json :=
  let (w, wholeLeft) := significand 0 whole
  if fraction.isEmpty && exponent.isNone && wholeLeft = 0 && !(negative && w = 0)
      && fitsInteger (if negative then -(w : Int) else w) then
    some (.int (if negative then -(w : Int) else w))
  else
    let (m, fractionLeft) := if wholeLeft = 0 then significand w fraction else (w, fraction.length)
    let places : Int := (wholeLeft : Int) - ((fraction.length : Int) - fractionLeft)
    match scaleByTen (Double.ofNat m) (places + exponent.getD 0) 8 with
    | some x => some (.double (if negative then x.neg else x))
    | none => none

def isDigit (c : Char) : Bool := '0' ≤ c && c ≤ '9'

def takeDigits (cs : List Char) : List Char × List Char := (cs.takeWhile isDigit, cs.dropWhile isDigit)

def exponentOf (cs : List Char) : Option (Option Int × List Char) :=
  match cs with
  | e :: rest =>
    if e = 'e' || e = 'E' then
      let (sign, rest) : Int × List Char := match rest with
        | '-' :: rest => (-1, rest)
        | '+' :: rest => (1, rest)
        | rest => (1, rest)
      let (ds, rest) := takeDigits rest
      if ds.isEmpty then none else some (some (sign * Double.digitsValue ds), rest)
    else some (none, cs)
  | [] => some (none, cs)

def number (cs : List Char) : Option (Json × List Char) := do
  let (negative, cs) := match cs with
    | '-' :: cs => (true, cs)
    | cs => (false, cs)
  let (whole, rest) := takeDigits cs
  if whole.isEmpty || (whole.head? = some '0' && 1 < whole.length) then none
  let (fraction, rest) ← match rest with
    | '.' :: rest =>
      let (ds, rest) := takeDigits rest
      if ds.isEmpty then none else some (ds, rest)
    | rest => some ([], rest)
  let (exponent, rest) ← exponentOf rest
  let j ← numberOf negative whole fraction exponent
  some (j, rest)

/-! ## Values -/

def keyword? (word : String) (cs : List Char) : Option (List Char) :=
  let w := word.toList
  if cs.take w.length = w then some (cs.drop w.length) else none

mutual
def value : Nat → List Char → Option (Json × List Char)
  | 0, _ => none
  | fuel + 1, cs =>
    match skipBlanks cs with
    | '"' :: rest => (stringBody (rest.length + 1) [] rest).map fun (s, rest) => (.string s, rest)
    | '[' :: rest =>
      match skipBlanks rest with
      | ']' :: rest => some (.array [], rest)
      | rest => (items fuel [] rest).map fun (js, rest) => (.array js, rest)
    | '\x7b' :: rest =>
      match skipBlanks rest with
      | '\x7d' :: rest => some (.object [], rest)
      | rest => (members fuel [] rest).map fun (ms, rest) => (ofMembers ms, rest)
    | c :: rest =>
      if c = 't' then (keyword? "rue" rest).map fun rest => (.bool true, rest)
      else if c = 'f' then (keyword? "alse" rest).map fun rest => (.bool false, rest)
      else if c = 'n' then (keyword? "ull" rest).map fun rest => (.null, rest)
      else number (c :: rest)
    | [] => none

def items : Nat → List Json → List Char → Option (List Json × List Char)
  | 0, _, _ => none
  | fuel + 1, acc, cs =>
    match value fuel cs with
    | none => none
    | some (j, rest) =>
      match skipBlanks rest with
      | ',' :: rest => items fuel (j :: acc) rest
      | ']' :: rest => some ((j :: acc).reverse, rest)
      | _ => none

def members : Nat → List (String × Json) → List Char → Option (List (String × Json) × List Char)
  | 0, _, _ => none
  | fuel + 1, acc, cs =>
    match skipBlanks cs with
    | '"' :: rest =>
      match stringBody (rest.length + 1) [] rest with
      | none => none
      | some (key, rest) =>
        match skipBlanks rest with
        | ':' :: rest =>
          match value fuel rest with
          | none => none
          | some (j, rest) =>
            match skipBlanks rest with
            | ',' :: rest => members fuel ((key, j) :: acc) rest
            | '\x7d' :: rest => some (((key, j) :: acc).reverse, rest)
            | _ => none
        | _ => none
    | _ => none
end

/-- The value a whole text holds. -/
def read (text : String) : Option Json :=
  let cs := text.toList
  match value (2 * cs.length + 2) cs with
  | some (j, rest) => if (skipBlanks rest).isEmpty then some j else none
  | none => none

end Json
end Graft
