import Graft.Text.Unicode
/-!
# Characters of JavaScript source

Blanks, line breaks and the characters of names. A name may hold any character that is not a control
character, a blank, a digit in front, or ASCII punctuation other than `$` and `_`.
-/

namespace Graft.Source

/-- The ASCII blanks. Only these count when a line break is looked for. -/
def isAsciiBlank (c : Char) : Bool := c = ' ' || (9 ≤ c.toNat && c.toNat ≤ 13)

def isBlank (c : Char) : Bool :=
  isAsciiBlank c ||
    (127 < c.toNat &&
      (Unicode.isSpaceSeparator c || c = '\uFEFF' || c = '\u2028' || c = '\u2029' || c = '\u2060' || c = '\u200B'))

/-- The breaks at which a semicolon can be inserted. -/
def isLineBreak (c : Char) : Bool := c = '\n' || c = '\u2028' || c = '\u2029'

/-- The characters that end a line comment. -/
def endsLine (c : Char) : Bool := isLineBreak c || c = '\r'

def isNamePart (c : Char) : Bool :=
  if c.toNat < 128 then
    Unicode.isAsciiLetter c || Unicode.isAsciiDigit c || c = '$' || c = '_' || c.toNat = 127
  else !isBlank c

def isNameStart (c : Char) : Bool := isNamePart c && !Unicode.isAsciiDigit c

def hexValue? (c : Char) : Option Nat :=
  if '0' ≤ c ∧ c ≤ '9' then some (c.toNat - '0'.toNat)
  else if 'a' ≤ c ∧ c ≤ 'f' then some (c.toNat - 'a'.toNat + 10)
  else if 'A' ≤ c ∧ c ≤ 'F' then some (c.toNat - 'A'.toNat + 10)
  else none

def isHexDigit (c : Char) : Bool := (hexValue? c).isSome

def isOctalDigit (c : Char) : Bool := '0' ≤ c && c ≤ '7'

end Graft.Source
