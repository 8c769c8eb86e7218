import Graft.Regex.CharSet
import Graft.Text.Unicode.Binary
import Graft.Text.Unicode.Category
import Graft.Text.Unicode.Script
/-!
# Named classes

The classes that a pattern can name: by a property of characters in Unicode, or by one of the names for
classes of ASCII characters. Case, blanks, hyphens and underscores in a property's name do not count, nor does
`is` in front.
-/

namespace Graft.Regex

/-- The form of a name under which it is looked up. -/
def looseName (name : List Char) : String :=
  let rest := match name with
    | i :: s :: rest => if (i = 'i' || i = 'I') && (s = 's' || s = 'S') then rest else name
    | _ => name
  let kept := rest.filter fun c => c.toNat < 128 && c ≠ ' ' && c ≠ '_' && c ≠ '-'
  let lower := kept.map Char.toLower
  if lower = ['c'] && rest.length < name.length then "isc" else String.ofList lower

/-! ## General categories -/

/-- Names of a general category, and the letters its short name begins with. -/
def categoryNames : List (String × List String) := [
  ("L", ["l", "letter"]), ("Lu", ["lu", "uppercaseletter"]), ("Ll", ["ll", "lowercaseletter"]),
  ("Lt", ["lt", "titlecaseletter"]), ("Lm", ["lm", "modifierletter"]), ("Lo", ["lo", "otherletter"]),
  ("M", ["m", "mark", "combiningmark"]), ("Mn", ["mn", "nonspacingmark"]), ("Mc", ["mc", "spacingmark"]),
  ("Me", ["me", "enclosingmark"]), ("N", ["n", "number"]), ("Nd", ["nd", "decimalnumber", "digit"]),
  ("Nl", ["nl", "letternumber"]), ("No", ["no", "othernumber"]), ("P", ["p", "punctuation", "punct"]),
  ("Pc", ["pc", "connectorpunctuation"]), ("Pd", ["pd", "dashpunctuation"]), ("Ps", ["ps", "openpunctuation"]),
  ("Pe", ["pe", "closepunctuation"]), ("Pi", ["pi", "initialpunctuation"]), ("Pf", ["pf", "finalpunctuation"]),
  ("Po", ["po", "otherpunctuation"]), ("S", ["s", "symbol"]), ("Sm", ["sm", "mathsymbol"]),
  ("Sc", ["sc", "currencysymbol"]), ("Sk", ["sk", "modifiersymbol"]), ("So", ["so", "othersymbol"]),
  ("Z", ["z", "separator"]), ("Zs", ["zs", "spaceseparator"]), ("Zl", ["zl", "lineseparator"]),
  ("Zp", ["zp", "paragraphseparator"]), ("C", ["c", "other"]), ("Cc", ["cc", "control", "cntrl"]),
  ("Cf", ["cf", "format"]), ("Co", ["co", "privateuse"]), ("Cn", ["cn", "unassigned"])]

def category? (name : String) : Option CharSet :=
  if name = "any" then some (CharSet.range 0 0x10FFFF)
  else if name = "ascii" then some (CharSet.range 0 127)
  else if name = "assigned" then some (CharSet.ofChanges (Unicode.categoryChanges (· ≠ "Cn")))
  else if name = "lc" || name = "casedletter" then
    some (CharSet.ofChanges (Unicode.categoryChanges fun c => c = "Lu" || c = "Ll" || c = "Lt"))
  else
    match categoryNames.find? fun entry => entry.2.contains name with
    | some (short, _) => some (CharSet.ofChanges (Unicode.categoryChanges fun c => short.toList.isPrefixOf c.toList))
    | none => none

/-! ## Scripts -/

/-- The four letters of a script and its longer name, from an entry `Name=Code`. -/
def scriptEntry (entry : List Char) : String × List Char :=
  match Unicode.fields '=' entry with
  | [name, code] => (looseName name, code)
  | _ => ("", [])

def script? (name : String) : Option CharSet :=
  let entries := (Unicode.words (String.join Unicode.scriptNames)).map scriptEntry
  match entries.find? fun entry => entry.1 = name || looseName entry.2 = name with
  | some (_, code) => some (CharSet.ofChanges (Unicode.scriptChanges (· = String.ofList code)))
  | none => none

/-! ## Binary properties -/

def binaryProperty? (name : String) : Option CharSet :=
  if ["alphabetic", "alpha"].contains name then some ⟨Unicode.alphabetic⟩
  else if ["whitespace", "wspace", "space"].contains name then some ⟨Unicode.whiteSpace⟩
  else (Unicode.binaryProperties.find? fun p => p.names.contains name).map fun p =>
    CharSet.ofChanges (Unicode.stretchChanges p.stretches)

/-- Names of properties that are no sets by themselves. -/
def valuedProperties : List String :=
  ["age", "scx", "scriptextensions", "script", "gc", "generalcategory", "gcb", "graphemeclusterbreak", "wb", "wordbreak",
   "sb", "sentencebreak", "isc", "isocomment"]

/-- The class with this name: a property, a general category or a script. -/
def namedClass? (name : List Char) : Option CharSet :=
  let name := looseName name
  if name = "cf" || name = "sc" || name = "lc" then category? name
  else if valuedProperties.contains name then none
  else ((binaryProperty? name).orElse fun _ => category? name).orElse fun _ => script? name

/-- The class of the characters that have a value of a property. -/
def valuedClass? (property value : List Char) : Option CharSet :=
  let value := looseName value
  match looseName property with
  | "gc" | "generalcategory" => category? value
  | "sc" | "script" | "scx" | "scriptextensions" => script? value
  | _ => none

/-! ## Classes of ASCII characters -/

def ofAsciiRanges (ranges : List (Char × Char)) : CharSet :=
  CharSet.unionAll (ranges.map fun r => CharSet.range r.1.toNat r.2.toNat)

def asciiClass? (name : String) : Option CharSet :=
  match name with
  | "alnum" => some (ofAsciiRanges [('0', '9'), ('A', 'Z'), ('a', 'z')])
  | "alpha" => some (ofAsciiRanges [('A', 'Z'), ('a', 'z')])
  | "ascii" => some (CharSet.range 0 127)
  | "blank" => some (ofAsciiRanges [('\t', '\t'), (' ', ' ')])
  | "cntrl" => some ((CharSet.range 0 31).union (CharSet.single 127))
  | "digit" => some (ofAsciiRanges [('0', '9')])
  | "graph" => some (ofAsciiRanges [('!', '~')])
  | "lower" => some (ofAsciiRanges [('a', 'z')])
  | "print" => some (ofAsciiRanges [(' ', '~')])
  | "punct" => some (ofAsciiRanges [('!', '/'), (':', '@'), ('[', '\x60'), ('\x7b', '~')])
  | "space" => some ((CharSet.range 9 13).union (CharSet.single 32))
  | "upper" => some (ofAsciiRanges [('A', 'Z')])
  | "word" => some (ofAsciiRanges [('0', '9'), ('A', 'Z'), ('_', '_'), ('a', 'z')])
  | "xdigit" => some (ofAsciiRanges [('0', '9'), ('A', 'F'), ('a', 'f')])
  | _ => none

/-- Digits, blanks or word characters, in all of Unicode or in ASCII. -/
def shorthandClass? (unicode : Bool) (letter : Char) : Option CharSet :=
  match letter with
  | 'd' => if unicode then some ⟨Unicode.decimalDigits⟩ else asciiClass? "digit"
  | 's' => if unicode then some ⟨Unicode.whiteSpace⟩ else asciiClass? "space"
  | 'w' => if unicode then some ⟨Unicode.wordCharacters⟩ else asciiClass? "word"
  | _ => none

end Graft.Regex
