import Graft.Json.Basic
/-!
# TOML values

A table remembers how it came about, which decides what may still be added to it. Tables are built entry by entry, and
`none` says that an entry is refused: its key is taken, or it leads into something that is closed.
-/

namespace Graft.Toml

/-- How a table came about: on the way to a header below it, by a dotted key, by its own header, or written between
braces. -/
inductive Origin where
  | implicit
  | dotted
  | header
  | inline
  deriving DecidableEq, Inhabited

inductive Value where
  | string (text : String)
  | integer (n : Int)
  | float (x : Double)
  | boolean (b : Bool)
  | dateTime (text : String)
  | array (items : List Value)
  | table (origin : Origin) (entries : List (String × Value))
  | tables (items : List (List (String × Value)))
  deriving Inhabited

abbrev Entries := List (String × Value)

namespace Entries

/-- Gives a key that is there another value. -/
def replace (key : String) (value : Value) (entries : Entries) : Entries :=
  entries.map fun entry => if entry.1 = key then (key, value) else entry

/-- Adds the value of a dotted key. Tables on the way are made where they are missing. A table that stands on the way to
a header may be passed through; the value itself goes only into a table that dotted keys have made. -/
def insert : List String → Value → Entries → Option Entries
  | [], _, _ => none
  | [key], value, entries => if (entries.lookup key).isSome then none else some (entries ++ [(key, value)])
  | key :: path, value, entries =>
    match entries.lookup key with
    | none => (insert path value []).map fun inner => entries ++ [(key, .table .dotted inner)]
    | some (.table .dotted inner) =>
      (insert path value inner).map fun inner => entries.replace key (.table .dotted inner)
    | some (.table .implicit inner) =>
      if path.length = 1 then none
      else (insert path value inner).map fun inner => entries.replace key (.table .implicit inner)
    | some _ => none

/-- Changes the table at the end of a path of header keys. In an array of tables the path goes through the last. -/
def alter : List String → (Entries → Option Entries) → Entries → Option Entries
  | [], change, entries => change entries
  | key :: path, change, entries =>
    match entries.lookup key with
    | none => (alter path change []).map fun inner => entries ++ [(key, .table .implicit inner)]
    | some (.table .inline _) => none
    | some (.table origin inner) =>
      (alter path change inner).map fun inner => entries.replace key (.table origin inner)
    | some (.tables items) =>
      match items.getLast? with
      | some last => (alter path change last).map fun last => entries.replace key (.tables (items.dropLast ++ [last]))
      | none => none
    | some _ => none

/-- Opens a table by its header. -/
def openTable (key : String) (entries : Entries) : Option Entries :=
  match entries.lookup key with
  | none => some (entries ++ [(key, .table .header [])])
  | some (.table .implicit inner) => some (entries.replace key (.table .header inner))
  | some _ => none

/-- Opens one more table of an array of tables. -/
def openElement (key : String) (entries : Entries) : Option Entries :=
  match entries.lookup key with
  | none => some (entries ++ [(key, .tables [[]])])
  | some (.tables items) => some (entries.replace key (.tables (items ++ [[]])))
  | some _ => none

end Entries

/-- The key under which the text of a date or time is found. -/
def dateTimeKey : String := "$__toml_private_datetime"

mutual
/-- The value as JSON data; a number may be one that JSON itself cannot write. -/
def Value.toJson : Value → Json
  | .string text => .string text
  | .integer n => .int n
  | .float x => .double x
  | .boolean b => .bool b
  | .dateTime text => .object [(dateTimeKey, .string text)]
  | .array items => .array (itemsToJson items)
  | .table _ entries => Json.ofMembers (entriesToJson entries)
  | .tables items => .array (tablesToJson items)

def itemsToJson : List Value → List Json
  | [] => []
  | v :: rest => v.toJson :: itemsToJson rest

def entriesToJson : List (String × Value) → List (String × Json)
  | [] => []
  | (key, v) :: rest => (key, v.toJson) :: entriesToJson rest

def tablesToJson : List (List (String × Value)) → List Json
  | [] => []
  | entries :: rest => Json.ofMembers (entriesToJson entries) :: tablesToJson rest
end

end Graft.Toml
