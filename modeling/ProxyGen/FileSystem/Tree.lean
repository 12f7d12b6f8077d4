import ProxyGen.FileSystem.Basic
import ProxyGen.Lookup
import ProxyGen.Path

/-!
File systems in memory: trees of directories and regular files only, without links of any kind. A place in a tree is
the list of names that leads to it from the root. Absolute paths start at the root, all others at the working directory.
-/
namespace ProxyGen

inductive Node
  | file (text : String)
  | directory
  deriving DecidableEq

def Node.kind : Node → FileKind
  | file _ => .file
  | directory => .directory

/-- The place of the working directory, and the nodes below the root, each with its place. -/
structure FileTree where
  home : List String
  nodes : List (List String × Node)
  deriving DecidableEq

namespace FileTree

/-- The tree that holds nothing but the working directory and the directories above it. -/
def empty (home : List String) : FileTree :=
  ⟨home,(List.range home.length).map fun n => (home.take (n + 1),.directory)⟩

def node? (t : FileTree) (place : List String) : Option Node :=
  if place.isEmpty then some .directory else t.nodes.lookup place

def put (t : FileTree) (place : List String) (n : Node) : FileTree :=
  { t with nodes := (place,n) :: t.nodes.filter (·.1 != place) }

def erase (t : FileTree) (place : List String) : FileTree :=
  { t with nodes := t.nodes.filter (·.1 != place) }

theorem node?_put (t : FileTree) {place : List String} (n : Node) (other : List String)
    (below : place ≠ []) : (t.put place n).node? other = if other = place then some n else t.node? other := by
  simp only [node?,put,List.lookup_cons]
  by_cases same : other = place
  · subst same
    simp [below]
  · simp only [beq_eq_false_iff_ne.mpr same,same,if_false]
    split
    · rfl
    · rw [lookup_filter_ne same]

theorem node?_erase (t : FileTree) {place : List String} (other : List String) (below : place ≠ []) :
    (t.erase place).node? other = if other = place then none else t.node? other := by
  simp only [node?,erase]
  by_cases same : other = place
  · subst same
    simp [below,lookup_filter_self]
  · simp [same,lookup_filter_ne same]

def namesAt (t : FileTree) (place : List String) : List String :=
  t.nodes.filterMap fun n => if n.1.dropLast = place then n.1.getLast? else none

def start (t : FileTree) (path : String) : List String :=
  if path.toList.head? = some '/' then [] else t.home

def step (place : List String) (element : String) : List String :=
  if element = "" ∨ element = "." then place
  else if element = ".." then place.dropLast
  else place ++ [element]

/-- Where the elements of a path lead. Every place on the way must be a directory; the last one need
not exist. -/
def follow (t : FileTree) (place : List String) : List String → Except FileFault (List String)
  | [] => .ok place
  | e :: rest =>
    match t.node? place with
    | none => .error .notFound
    | some (.file _) => .error .notDirectory
    | some .directory =>
      if e.utf8ByteSize > Path.maxName then .error .nameTooLong
      else t.follow (step place e) rest

def elementsOf (path : String) : Except FileFault (List String) :=
  if path.isEmpty then .error .notFound
  else if path.toList.contains '\x00' then .error .nulInPath
  else if path.utf8ByteSize > Path.maxPath then .error .nameTooLong
  else .ok (Path.allElements path)

def locate (t : FileTree) (path : String) : Except FileFault (List String × Node) := do
  let place ← t.follow (t.start path) (← elementsOf path)
  match t.node? place with
  | some n => return (place,n)
  | none => throw .notFound

def kind (t : FileTree) (path : String) : Except FileFault FileKind := do
  return (← t.locate path).2.kind

def read (t : FileTree) (path : String) : Except FileFault String := do
  match (← t.locate path).2 with
  | .file text => return text
  | .directory => throw .isDirectory

def list (t : FileTree) (path : String) : Except FileFault (List String) := do
  let (place,n) ← t.locate path
  match n with
  | .file _ => throw .notDirectory
  | .directory => return t.namesAt place

def remove (t : FileTree) (path : String) : Except FileFault FileTree := do
  let (place,n) ← t.locate path
  match n with
  | .file _ => return t.erase place
  | .directory => throw .isDirectory

/-- A path that ends in a slash leads to no file, whether or not there is anything of its last name. -/
def write (t : FileTree) (path text : String) : Except FileFault FileTree := do
  let elements ← elementsOf path
  let names := Path.withoutTrailing elements
  if names = elements then
    let place ← t.follow (t.start path) names
    if t.node? place = some .directory then
      throw .isDirectory
    return t.put place (.file text)
  else
    discard <| t.follow (t.start path) (names.dropLast ++ [""])
    throw .isDirectory

def makeDir (t : FileTree) (start elements : List String) : Except FileFault FileTree := do
  let place ← t.follow start (Path.withoutTrailing elements)
  match t.node? place with
  | some _ => throw .alreadyExists
  | none => return t.put place .directory

def isDirectoryAt (t : FileTree) (start elements : List String) : Bool :=
  match t.follow start elements with
  | .ok place => t.node? place == some .directory
  | .error _ => false

def ensureDir (start elements : List String) (t : FileTree) : Except FileFault FileTree :=
  match t.makeDir start elements with
  | .ok t => .ok t
  | .error f => if t.isDirectoryAt start elements then .ok t else .error f

/-- Makes one directory; where the one above it is missing, `above` makes that first. What has been made
stays, also on failure. -/
def ensureDirBelow (above : FileTree → FileTree × Except FileFault Unit) (start elements : List String)
    (t : FileTree) : FileTree × Except FileFault Unit :=
  match t.ensureDir start elements with
  | .ok t => (t,.ok ())
  | .error .notFound =>
    match above t with
    | (t,.error f) => (t,.error f)
    | (t,.ok ()) =>
      match t.ensureDir start elements with
      | .ok t => (t,.ok ())
      | .error f => (t,.error f)
  | .error f => (t,.error f)

/-- Makes a directory and all above it; the names stand in reverse. -/
def ensureDirs (start : List String) : List String → FileTree → FileTree × Except FileFault Unit
  | [], t => (t,.ok ())
  | name :: parents, t =>
    ensureDirBelow (ensureDirs start parents) start (name :: parents).reverse t

def createDirs (t : FileTree) (path : String) : FileTree × Except FileFault Unit :=
  if path.isEmpty then (t,.ok ())
  else match elementsOf path with
    | .error f => (t,.error f)
    | .ok elements =>
      let above := ensureDirs (t.start path) (Path.elements path).dropLast.reverse
      ensureDirBelow above (t.start path) elements t

/-- Goes on with the tree that a step gives, if it succeeds. -/
def update (step : FileTree → Except FileFault FileTree) : StateM FileTree (Except FileFault Unit) :=
  fun t => match step t with
    | .ok t => (.ok (),t)
    | .error f => (.error f,t)

instance : FileSystem (StateM FileTree) where
  workingDirectory := fun t => (some ("/" ++ String.intercalate "/" t.home),t)
  kind path := fun t => (t.kind path,t)
  read path := fun t => (t.read path,t)
  list path := fun t => (t.list path,t)
  write path text := update fun t => t.write path text
  createDirs path := fun t => (t.createDirs path).swap
  remove path := update fun t => t.remove path

end FileTree
end ProxyGen
