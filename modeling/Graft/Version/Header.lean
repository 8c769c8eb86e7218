import Graft.Version.Basic
/-!
# Versions in comments

The version of a bundle stands in a comment near its start: on a line that begins with `//`, `/*` or `*`, at a word of
its own, perhaps with a `v` before it. The first such text that is a version is taken. Only so many bytes of the
bundle are looked at, and a text that goes on beyond them is cut there.
-/

namespace Graft.Version

/-- How many bytes of a bundle are looked at. -/
def headerSize : Nat := 4096

/-- The longest front of a text that has at most `room` bytes and cuts no character. -/
def takeBytes : Nat → List Char → List Char
  | _, [] => []
  | room, c :: rest => if c.utf8Size ≤ room then c :: takeBytes (room - c.utf8Size) rest else []

/-- What follows the sign that opens a comment, and the last character of the sign. -/
def comment? : List Char → Option (Char × List Char)
  | '/' :: '/' :: rest => some ('/', rest)
  | '/' :: '*' :: rest => some ('*', rest)
  | '*' :: rest => some ('*', rest)
  | _ => none

/-- One or more digits at the front of a text, and the text after them. -/
def digits? (cs : List Char) : Option (List Char × List Char) :=
  let digits := cs.takeWhile Unicode.isDecimalDigit
  if digits.isEmpty then none else some (digits, cs.dropWhile Unicode.isDecimalDigit)

/-- Can the character be part of a pre-release or of build data? -/
def isSuffixPart (c : Char) : Bool := isIdentifierPart c || c = '.'

/-- A sign and the characters after it, as far as they go; nothing if none follows the sign. -/
def suffix (sign : Char) (cs : List Char) : List Char × List Char :=
  match after? sign cs with
  | none => ([], cs)
  | some rest =>
    let part := rest.takeWhile isSuffixPart
    if part.isEmpty then ([], cs) else (sign :: part, rest.dropWhile isSuffixPart)

/-- Text of the form of a version at the front of a text, and the text after it. -/
def versionText? (cs : List Char) : Option (List Char × List Char) := do
  let (major, rest) ← digits? ((after? 'v' cs).getD cs)
  let (minor, rest) ← digits? (← after? '.' rest)
  let (patch, rest) ← digits? (← after? '.' rest)
  let (pre, rest) := suffix '-' rest
  let (build, rest) := suffix '+' rest
  return (major ++ '.' :: minor ++ '.' :: patch ++ pre ++ build, rest)

/-- The first text of that form on a line that does not go on a word. -/
def versionOnLine? (before : Char) : List Char → Option (List Char × List Char)
  | [] => none
  | c :: rest =>
    match if Unicode.isWord before then none else versionText? (c :: rest) with
    | some found => some found
    | none => if c = '\n' then none else versionOnLine? c rest

/-- The version text in the comment that begins at the start of a line, perhaps after blanks and blank lines. -/
def versionInComment? (cs : List Char) : Option (List Char × List Char) := do
  let (sign, rest) ← comment? (cs.dropWhile Unicode.isWhiteSpace)
  versionOnLine? sign rest

def nextLine (cs : List Char) : List Char := (cs.dropWhile (· ≠ '\n')).tail

/-- The version texts of a text, from a start of a line on. -/
def versionTexts : Nat → List Char → List (List Char)
  | 0, _ => []
  | _ + 1, [] => []
  | fuel + 1, cs =>
    match versionInComment? cs with
    | some (text, rest) => text :: versionTexts fuel (nextLine rest)
    | none => versionTexts fuel (nextLine cs)

/-- The version that the comments at the start of a bundle give. -/
def detect? (source : String) : Option String :=
  let header := takeBytes headerSize source.toList
  ((versionTexts (header.length + 1) header).map String.ofList).find? fun text => (Version.read? text).isSome

end Graft.Version
