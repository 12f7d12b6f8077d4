import ProxyGen.Path
import ProxyGen.Sink

/-!
Output directories. A file there is removed or overwritten only if it starts with the header of generated
files.
-/
namespace ProxyGen.OutputDir

variable {m : Type → Type} [Monad m] [FileSystem m]

def header : String := "// " ++ generatedComment

def hasHeader (text : String) : Bool := header.toList.isPrefixOf text.toList

def isGenerated (path : String) : ExceptT Failure m Bool := do
  return hasHeader (← (Task.readFile path).onFile (FileSystem.read path))

def kind? (path : String) : ExceptT Failure m (Option FileKind) := do
  return (← (FileSystem.kind path : m _)).toOption

/-- Refuses a path with a file that was not generated. -/
def checkTarget (path : String) : ExceptT Failure m Unit := do
  if (← kind? path).isSome then
    if !(← isGenerated path) then
      throw ⟨[],.error (.foreignFile path)⟩

/-- A generated file may be left from a run before. -/
def isStale (path : String) : ExceptT Failure m Bool := do
  if (← kind? path) = some .file then isGenerated path else return false

def staleFiles (dir : String) : ExceptT Failure m (List String) := do
  let names ← (Task.listDir dir).onFile (FileSystem.list dir)
  ((names.filter fun name => Path.extension? name = some "go").map (Path.join dir)).filterM isStale

/-- Makes the directory, or clears it of generated files once it is known that all targets can be
written. -/
def prepare (dir : String) (fileNames : List String) : ExceptT Failure m Unit := do
  if (← kind? dir).isNone then
    (Task.createDir dir).onFile (FileSystem.createDirs dir)
  else
    fileNames.forM fun name => checkTarget (Path.join dir name)
    (← staleFiles dir).forM fun path => (Task.removeFile path).onFile (FileSystem.remove path)

def write (dir fileName text : String) : ExceptT Failure m Unit := do
  let path := Path.join dir fileName
  checkTarget path
  (Task.writeFile path).onFile (FileSystem.write path text)

def sink (dir : String) : Sink m where
  prepare units := prepare dir (units.map (·.fileName))
  write unit := write dir unit.fileName unit.text

end ProxyGen.OutputDir
