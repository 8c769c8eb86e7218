import Graft.Files.Path
/-!
# File systems

A file system is a map from locations to directories and files. A file is replaced by writing a temporary file next
to it, which then takes its place; where that fails, the temporary file is removed again.
-/

namespace Graft

/-- Names from the root down. -/
abbrev Location := List String

inductive Entry where
  | directory
  | file (content : ByteArray)

def Entry.isDirectory : Entry → Bool
  | .directory => true
  | .file _ => false

structure FileSystem where
  /-- Where paths that are not absolute start. -/
  current : Location
  entries : List (Location × Entry)

/-- Why a file cannot be used. -/
inductive FileError where
  | notFound
  | notADirectory
  | isADirectory
  | notText
  | busy
  deriving DecidableEq, Inhabited

def FileError.message : FileError → String
  | .notFound => "No such file or directory (os error 2)"
  | .notADirectory => "Not a directory (os error 20)"
  | .isADirectory => "Is a directory (os error 21)"
  | .notText => "stream did not contain valid UTF-8"
  | .busy => "Device or resource busy (os error 16)"

namespace FileSystem

/-- What is at a location. The root is always there. -/
def get? (fs : FileSystem) (l : Location) : Option Entry :=
  if l = [] then some .directory else fs.entries.lookup l

/-- Puts an entry at a location, in place of the one that is there. -/
def put (fs : FileSystem) (l : Location) (e : Entry) : FileSystem :=
  { fs with entries :=
      if (fs.entries.lookup l).isSome then fs.entries.map fun entry => if entry.1 = l then (l, e) else entry
      else fs.entries ++ [(l, e)] }

def remove (fs : FileSystem) (l : Location) : FileSystem :=
  { fs with entries := fs.entries.filter fun entry => entry.1 ≠ l }

/-! ## Following paths -/

/-- Follows the pieces of a path from a directory. All but the last have to lead to directories. -/
def follow (fs : FileSystem) : Location → List String → Except FileError Location
  | l, [] => .ok l
  | l, piece :: rest =>
    if Path.isIdle piece then follow fs l rest
    else if piece = ".." then follow fs l.dropLast rest
    else if rest.isEmpty then .ok (l ++ [piece])
    else
      match fs.get? (l ++ [piece]) with
      | some .directory => follow fs (l ++ [piece]) rest
      | some (.file _) => .error .notADirectory
      | none => .error .notFound

/-- The location that a path leads to. -/
def locate (fs : FileSystem) (path : String) : Except FileError Location :=
  if path.isEmpty then .error .notFound
  else fs.follow (if Path.isAbsolute path then [] else fs.current) (Path.pieces path)

/-- The directory that a path leads to. -/
def locateDirectory (fs : FileSystem) (path : String) : Except FileError Location := do
  let l ← fs.locate path
  match fs.get? l with
  | some .directory => .ok l
  | some (.file _) => .error .notADirectory
  | none => .error .notFound

/-! ## Reading -/

/-- The text of a file. -/
def readText (fs : FileSystem) (path : String) : Except FileError String := do
  match fs.get? (← fs.locate path) with
  | none => .error .notFound
  | some .directory => .error .isADirectory
  | some (.file content) =>
    match String.fromUTF8? content with
    | some text => .ok text
    | none => .error .notText

/-- Is there a file at a path? -/
def isFile (fs : FileSystem) (path : String) : Bool :=
  match fs.locate path with
  | .ok l =>
    match fs.get? l with
    | some (.file _) => true
    | _ => false
  | .error _ => false

/-- The entries right below a location, with their names. -/
def children (fs : FileSystem) (l : Location) : List (String × Entry) :=
  fs.entries.filterMap fun (place, e) =>
    match place.getLast? with
    | some name => if place.dropLast = l then some (name, e) else none
    | none => none

/-- The names of the directories in a directory. -/
def subdirectories (fs : FileSystem) (path : String) : Except FileError (List String) := do
  let l ← fs.locateDirectory path
  return ((fs.children l).filter fun child => child.2.isDirectory).map Prod.fst

/-! ## Writing -/

/-- A name that no entry has: it is longer than all of them. -/
def freshName (fs : FileSystem) : String :=
  let longest := fs.entries.foldl (fun n entry => max n ((entry.1.map String.length).foldl max 0)) 0
  String.ofList ('.' :: List.replicate longest '~')

/-- Where a file can be put by a path: a location in a directory, at which there is no directory. -/
def locateTarget (fs : FileSystem) (path : String) : Except FileError Location := do
  let l ← fs.locate path
  if !((Path.pieces path).getLast?.any Path.isName) then .error .busy
  else
    match fs.get? l with
    | some .directory => .error .isADirectory
    | _ => .ok l

/-- Moves a file to where a path leads, in place of a file that is there. -/
def rename (fs : FileSystem) (source : Location) (path : String) : Except FileError FileSystem := do
  let l ← fs.locateTarget path
  match fs.get? source with
  | some e => .ok ((fs.remove source).put l e)
  | none => .error .notFound

/-- Replaces a file, or makes it, in a directory: the content goes into a temporary file first. -/
def replaceIn (fs : FileSystem) (directory : Location) (path : String) (content : ByteArray) :
    Except FileError Unit × FileSystem :=
  let temporary := directory ++ [fs.freshName]
  let written := fs.put temporary (.file content)
  match written.rename temporary path with
  | .ok renamed => (.ok (), renamed)
  | .error e => (.error e, written.remove temporary)

/-- Replaces the file at a path, or makes it, in the directory that the path lies in. -/
def replaceFile (fs : FileSystem) (path text : String) : Except FileError Unit × FileSystem :=
  match (Path.parent? path).elim (.error .notFound) fs.locateDirectory with
  | .ok directory => fs.replaceIn directory path text.toUTF8
  | .error e => (.error e, fs)

end FileSystem
end Graft
