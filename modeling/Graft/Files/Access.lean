import Graft.Files.FileSystem
/-!
# Access to files

What the program does with files, whatever the files are. A `FileSystem` in a state gives such access.
-/

namespace Graft

class FileAccess (m : Type → Type) where
  /-- The text of the file at a path. -/
  readText : String → m (Except FileError String)
  /-- Is there a file at a path? -/
  isFile : String → m Bool
  /-- The names of the directories in the directory at a path. -/
  subdirectories : String → m (Except FileError (List String))
  /-- Replaces the file at a path by a text, or makes it. -/
  replaceFile : String → String → m (Except FileError Unit)

instance : FileAccess (StateM FileSystem) where
  readText path := do return (← get).readText path
  isFile path := do return (← get).isFile path
  subdirectories path := do return (← get).subdirectories path
  replaceFile path text := fun fs => fs.replaceFile path text

end Graft
