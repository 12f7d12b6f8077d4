import ProxyGen.CommandLine.Parser
import ProxyGen.Run

/-!
The program: reads its arguments, runs on the files of the machine, and reports.
-/
namespace ProxyGen.Disk

def faultOf : IO.Error → FileFault
  | .noFileOrDirectory .. => .notFound
  | .alreadyExists .. => .alreadyExists
  | .inappropriateType .. => .notDirectory
  | _ => .unsupported

/-- What an action gives, or the fault that it ended with. -/
def attempt {α : Type} (act : IO α) : IO (Except FileFault α) := do
  try
    return .ok (← act)
  catch e =>
    return .error (faultOf e)

def kind (path : String) : IO FileKind := do
  let place ← IO.FS.realPath path
  return if ← place.isDir then .directory else .file

def list (path : String) : IO (List String) := do
  let place ← IO.FS.realPath path
  return (← place.readDir).toList.map fun entry => entry.fileName

instance : FileSystem IO where
  workingDirectory := do return (← attempt IO.currentDir).toOption.map toString
  kind path := attempt (kind path)
  read path := attempt (IO.FS.readFile path)
  list path := attempt (list path)
  write path text := attempt (IO.FS.writeFile path text)
  createDirs path := attempt (IO.FS.createDirAll path)
  remove path := attempt (IO.FS.removeFile path)

end ProxyGen.Disk

open ProxyGen in
/-- Reports on the standard output, and problems on the standard error. -/
def main (arguments : List String) : IO UInt32 := do
  match CommandLine.parse arguments with
  | .error stop =>
    if stop.isAnswer then
      IO.println stop.message
      return 0
    IO.eprintln ("error: " ++ stop.message)
    return 2
  | .ok invocation =>
    match ← (Run.start invocation).run with
    | .ok text =>
      IO.print text
      return 0
    | .error failure =>
      IO.eprintln ("Error: " ++ failure.report)
      return 1
