import Graft.Regex.Basic
/-!
# Replacement templates

In a template `$name` and `$1` stand for the text of a group, `${name}` too, and `$$` for a dollar. A name
without braces is the longest run of ASCII letters, digits and underscores. A dollar that begins none of these
stands for itself, and a group that does not exist for nothing.
-/

namespace Graft.Regex

inductive TemplatePart where
  | literal (c : Char)
  | group (name : List Char)
  deriving DecidableEq

def isReferenceLetter (c : Char) : Bool := Unicode.isAsciiLetter c || Unicode.isAsciiDigit c || c = '_'

/-- The name in a reference and the text after it, given the text after the dollar. -/
def reference? : List Char → Option (List Char × List Char)
  | '\x7b' :: rest =>
    match rest.dropWhile (· ≠ '\x7d') with
    | _ :: after => some (rest.takeWhile (· ≠ '\x7d'), after)
    | [] => none
  | cs =>
    let name := cs.takeWhile isReferenceLetter
    if name.isEmpty then none else some (name, cs.dropWhile isReferenceLetter)

/-- The parts of a template. -/
def templateParts : Nat → List Char → List TemplatePart
  | 0, _ => []
  | _ + 1, [] => []
  | fuel + 1, '$' :: rest =>
    match rest with
    | '$' :: after => .literal '$' :: templateParts fuel after
    | _ =>
      match reference? rest with
      | some (name, after) => .group name :: templateParts fuel after
      | none => .literal '$' :: templateParts fuel rest
  | fuel + 1, c :: rest => .literal c :: templateParts fuel rest

def template (text : String) : List TemplatePart := templateParts (text.length + 1) text.toList

/-! ## References that run on -/

def isNameStart (c : Char) : Bool := Unicode.isAsciiLetter c || c = '_'

/-- The first reference without braces whose name begins with a number and goes on with letters: the digits and the
rest of the name. Two dollars are no reference. -/
def ambiguousReference? : List Char → Option (List Char × List Char)
  | [] => none
  | '$' :: '$' :: rest => ambiguousReference? rest
  | '$' :: rest =>
    let digits := rest.takeWhile Unicode.isAsciiDigit
    let after := rest.dropWhile Unicode.isAsciiDigit
    if !digits.isEmpty && after.head?.any isNameStart then some (digits, after.takeWhile isReferenceLetter)
    else ambiguousReference? rest
  | _ :: rest => ambiguousReference? rest

/-! ## Replacing -/

/-- The number that a name denotes, if it is one of 64 bits. -/
def groupNumber? (name : List Char) : Option Nat :=
  let digits := match name with
    | '+' :: rest => rest
    | _ => name
  let n := digits.foldl (fun n c => n * 10 + (c.toNat - 48)) 0
  if !digits.isEmpty && digits.all Unicode.isAsciiDigit && n < twoTo 64 then some n else none

/-- The group that a name stands for. -/
def groupOf? (r : Regex) (name : List Char) : Option Nat :=
  match groupNumber? name with
  | some n => some n
  | none => r.names.lookup (String.ofList name)

/-- The text that a template gives for a match. -/
def expand (r : Regex) (text : Array Char) (m : Program.Match) (parts : List TemplatePart) : List Char :=
  parts.flatMap fun part =>
    match part with
    | .literal c => [c]
    | .group name =>
      match groupOf? r name with
      | some index => groupText text m index
      | none => []

/-- The text with each match replaced, and the number of matches. -/
def replaceAll (r : Regex) (text replacement : String) : String × Nat :=
  let chars := text.toList.toArray
  let found := r.matches chars
  let parts := template replacement
  let (pieces, last) := found.foldl (fun (pieces, from') m =>
    (expand r chars m parts :: (chars.extract from' m.start).toList :: pieces, m.stop)) ([], 0)
  (String.ofList ((chars.extract last chars.size).toList :: pieces).reverse.flatten, found.length)

end Graft.Regex
