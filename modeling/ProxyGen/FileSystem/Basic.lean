/-!
File systems as a run sees them. Paths are texts, and every operation on a path may fail.
-/
namespace ProxyGen

inductive FileFault
  | notFound
  | isDirectory
  | notDirectory
  | alreadyExists
  /-- A name, or the path as a whole, is longer than names and paths can be. -/
  | nameTooLong
  | nulInPath
  /-- What the path leads to does not allow the operation. -/
  | unsupported
  deriving DecidableEq

def FileFault.message : FileFault → String
  | notFound => "no such file or directory"
  | isDirectory => "is a directory"
  | notDirectory => "not a directory"
  | alreadyExists => "file exists"
  | nameTooLong => "file name too long"
  | nulInPath => "file name contains a NUL"
  | unsupported => "operation not supported"

inductive FileKind
  | file
  | directory
  deriving DecidableEq

class FileSystem (m : Type → Type) where
  /-- The absolute path of the directory that relative paths start from, where it can be told. -/
  workingDirectory : m (Option String)
  kind : String → m (Except FileFault FileKind)
  read : String → m (Except FileFault String)
  list : String → m (Except FileFault (List String))
  /-- Gives a file this text and makes the file where there is none. -/
  write : (path text : String) → m (Except FileFault Unit)
  /-- Makes a directory and those above it, unless they are there. -/
  createDirs : String → m (Except FileFault Unit)
  remove : String → m (Except FileFault Unit)

end ProxyGen
