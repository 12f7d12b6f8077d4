import ProxyGen.Description.Encoding
import ProxyGen.Failure
import ProxyGen.Json.Parser
import ProxyGen.Universe.Building

/-!
Files with the description of a universe.
-/
namespace ProxyGen.UniverseFile

variable {m : Type → Type} [Monad m] [FileSystem m]

def parse (text : String) : Except Failure Description :=
  match (Json.parse text).bind Description.ofJson? with
  | some d => .ok d
  | none => .error ⟨[.parseUniverse],.notDescription⟩

def readText (path : String) : ExceptT Failure m String := do
  match ← (Task.openUniverse path).onFile (FileSystem.kind path) with
  | .directory => throw ⟨[.mapUniverse],.file .unsupported⟩
  | .file => Task.mapUniverse.onFile (FileSystem.read path)

def load (path : String) : ExceptT Failure m (Description × Universe) := do
  let d ← parse (← readText path)
  let u ← (Task.buildUniverse path).check (Universe.ofDescription d)
  return (d,u)

end ProxyGen.UniverseFile
