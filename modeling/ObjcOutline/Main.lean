import ObjcOutline.Command.Run

/-!
# The program

Reads the files that the command line names and runs the command on them.
-/
namespace ObjcOutline

/-- Why a file could not be opened. The number is that of a name that is too long. -/
def openFault : IO.Error → ReadFault
  | .noFileOrDirectory .. => .notFound
  | .inappropriateType .. => .notDirectory
  | .permissionDenied .. => .other "open" "permission denied"
  | .invalidArgument _ 36 _ => .nameTooLong
  | e => .other "open" e.toString.toList

def readFault : IO.Error → ReadFault
  | .inappropriateType .. => .isDirectory
  | e => .other "read" e.toString.toList

def readFromDisk (path : Text) : IO (Except ReadFault Bytes) := do
  if path.contains '\x00' then return .error .invalidName
  match ← (IO.FS.Handle.mk (String.ofList path) .read).toBaseIO with
  | .error e => return .error (openFault e)
  | .ok handle =>
    match ← handle.readBinToEnd.toBaseIO with
    | .error e => return .error (readFault e)
    | .ok data => return .ok data.toList

end ObjcOutline

open ObjcOutline in
def main (args : List String) : IO UInt32 := do
  let args := args.map String.toList
  let files ← (Command.readPaths args).mapM fun path => do return (path, ← readFromDisk path)
  let disk : Disk := fun path => (files.lookup path).getD (.error .notFound)
  let outcome := Command.run disk none args
  (← IO.getStdout).putStr (String.ofList outcome.stdout)
  (← IO.getStderr).putStr (String.ofList outcome.stderr)
  return outcome.exit.toUInt32
