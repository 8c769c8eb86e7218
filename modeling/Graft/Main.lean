import Graft.Command.Run
/-!
# The program

Access to the files of the machine, and the command line.
-/

namespace Graft

/-- The text that bytes stand for. -/
def ofBytes (bytes : ByteArray) : Except FileError String :=
  match String.fromUTF8? bytes with
  | some text => .ok text
  | none => .error .notText

def fileError : IO.Error → FileError
  | .noFileOrDirectory .. => .notFound
  | .inappropriateType .. => .notADirectory
  | .resourceBusy .. => .busy
  | _ => .notFound

/-- The result of an action, or why it failed. -/
def attempt {α : Type} (action : IO α) : IO (Except FileError α) := do
  match ← action.toBaseIO with
  | .ok a => return .ok a
  | .error e => return .error (fileError e)

/-- Writes a temporary file and moves it into place; it is removed where that fails. -/
def replaceAtomically (path text : String) : IO Unit := do
  let directory := (Path.parent? path).getD "."
  let stamp ← IO.monoNanosNow
  let temporary := Path.join directory (".tmp" ++ toString stamp)
  IO.FS.writeBinFile temporary text.toUTF8
  try IO.FS.rename temporary path
  catch e =>
    IO.FS.removeFile temporary
    throw e

instance : FileAccess IO where
  readText path := do return (← attempt (IO.FS.readBinFile path)).bind ofBytes
  isFile path := do return (← attempt (IO.FS.readBinFile path)).toOption.isSome
  subdirectories path := attempt do
    let directory ← IO.FS.realPath path
    let entries ← directory.readDir
    let inside ← entries.toList.filterM fun entry => entry.path.isDir
    return inside.map fun entry => entry.fileName
  replaceFile path text := attempt (replaceAtomically path text)

end Graft

def main (args : List String) : IO UInt32 := do
  let (printed, code) ← Graft.Command.run args
  IO.print printed.out
  IO.eprint printed.err
  return code.toUInt32
