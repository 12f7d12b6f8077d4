import ProxyGen.CommandLine.Basic
import ProxyGen.Generation
import ProxyGen.Json.Printer
import ProxyGen.OutputDir
import ProxyGen.UniverseFile

/-!
Whole runs: from the universe file to the output directory.
-/
namespace ProxyGen.Run

variable {m : Type → Type} [Monad m] [FileSystem m]

/-- Generates from the universe file, and writes unless the run is dry. -/
def execute (s : Settings) : ExceptT Failure m Summary := do
  let here ← FileSystem.workingDirectory (m := m)
  s.check here
  let (_,u) ← UniverseFile.load s.universeFile
  let g ← Generation.run s u here
  if !s.dryRun then
    (OutputDir.sink s.outputDir).store g.units
  return g.summary

def start (i : CommandLine.Invocation) : ExceptT Failure m String := do
  let summary ← execute i.settings
  return (if i.json then summary.toJson.pretty 0 else summary.text) ++ "\n"

end ProxyGen.Run
