import ProxyGen.Error
import ProxyGen.FileSystem.Basic

/-!
Failures of runs: a cause, and what the run was doing at the time, the larger task first.
-/
namespace ProxyGen

inductive Task
  | checkSettings
  | openUniverse (path : String)
  | mapUniverse
  | parseUniverse
  | buildUniverse (path : String)
  | resolveInput
  | locateRoot
  | resolveAdditional (package : String)
  | analyze
  | synthesize
  | prepareOutput
  | writeUnit (fileName : String)
  | createDir (path : String)
  | listDir (path : String)
  | readFile (path : String)
  | removeFile (path : String)
  | writeFile (path : String)
  deriving DecidableEq

def Task.message : Task → String
  | checkSettings => "Invalid generator configuration"
  | openUniverse path => "Failed to open universe file: " ++ path
  | mapUniverse => "Failed to mmap universe file"
  | parseUniverse => "Failed to parse universe JSON"
  | buildUniverse path => "Invalid universe file: " ++ path
  | resolveInput => "Failed to resolve input package"
  | locateRoot => "Failed to locate root type"
  | resolveAdditional package => "Failed to resolve additional package `" ++ package ++ "`"
  | analyze => "Type analysis failed"
  | synthesize => "Code synthesis failed"
  | prepareOutput => "Failed to prepare output"
  | writeUnit fileName => "Failed to write unit " ++ fileName
  | createDir path => "Failed to create output directory: " ++ path
  | listDir path => "Failed to list output directory: " ++ path
  | readFile path => "Failed to read " ++ path
  | removeFile path => "Failed to remove " ++ path
  | writeFile path => "Failed to write " ++ path

inductive Cause
  | error (error : Error)
  /-- A text that is not JSON, or JSON that is no description. -/
  | notDescription
  | file (fault : FileFault)
  | refused (reason : String)
  deriving DecidableEq

structure Failure where
  tasks : List Task
  cause : Cause
  deriving DecidableEq

namespace Failure

def within (task : Task) (f : Failure) : Failure := { f with tasks := task :: f.tasks }

/-- The tasks, and the cause where it has words of this library. -/
def message (f : Failure) : String :=
  let cause := match f.cause with
    | .error e => [e.message]
    | .refused reason => [reason]
    | .notDescription | .file _ => []
  String.intercalate ": " (f.tasks.map Task.message ++ cause)

def report (f : Failure) : String :=
  match f.cause with
  | .error _ | .refused _ => f.message
  | .notDescription => f.message ++ ": not a description of packages"
  | .file fault => f.message ++ ": " ++ fault.message

end Failure

variable {α : Type} {m : Type → Type} [Monad m]

namespace Task

def failedBy (task : Task) (e : Error) : Failure := ⟨[task],.error e⟩

def check (task : Task) (r : Except Error α) : Except Failure α := r.mapError task.failedBy

/-- Names this task in a failure of a part of it. -/
def within (task : Task) (act : ExceptT Failure m α) : ExceptT Failure m α :=
  ExceptT.adapt (Failure.within task) act

def onFile (task : Task) (act : m (Except FileFault α)) : ExceptT Failure m α :=
  ExceptT.adapt (fun f => ⟨[task],.file f⟩) (ExceptT.mk act)

end Task
end ProxyGen
