/-!
# Paths as they are written

A path is a text of names with slashes between them. A single dot and an empty name mean nothing, two dots the
directory above.
-/

namespace Graft.Path

/-- The pieces of a text between its slashes. -/
def split : List Char → List (List Char)
  | [] => [[]]
  | c :: rest =>
    if c = '/' then [] :: split rest
    else
      match split rest with
      | [] => [[c]]
      | piece :: pieces => (c :: piece) :: pieces

def pieces (path : String) : List String := (split path.toList).map String.ofList

def isAbsolute (path : String) : Bool := path.toList.head? = some '/'

/-- Does a piece stand for the directory it is in? -/
def isIdle (piece : String) : Bool := piece = "" || piece = "."

/-- Is a piece the name of an entry? -/
def isName (piece : String) : Bool := !isIdle piece && piece ≠ ".."

/-- The pieces that lead somewhere. -/
def names (path : String) : List String := (pieces path).filter fun piece => !isIdle piece

/-- The name that a path ends in, if it ends in one. -/
def fileName? (path : String) : Option String := (names path).getLast?.filter isName

/-- The directory that holds what the path names. The root and the empty path are in none. -/
def parent? (path : String) : Option String :=
  match names path with
  | [] => if path.isEmpty || isAbsolute path then none else some "."
  | found =>
    let above := "/".intercalate found.dropLast
    if isAbsolute path then some ("/" ++ above) else some (if above.isEmpty then "." else above)

/-- A name inside a directory. -/
def join (directory name : String) : String :=
  if directory.isEmpty || directory.toList.getLast? = some '/' then directory ++ name else directory ++ "/" ++ name

end Graft.Path
