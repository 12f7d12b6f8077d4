import ProxyGen.Text.Split

/-!
Paths of files as texts: their elements, their last name, and how a name is joined to a directory.
-/
namespace ProxyGen.Path

/-- The greatest size of a name in bytes. -/
def maxName : Nat := 255

/-- The greatest size of a path in bytes. -/
def maxPath : Nat := 4095

def allElements (path : String) : List String :=
  (Text.splitAll '/' path.toList).map String.ofList

/-- Elements without the empty ones at the end. -/
def withoutTrailing (elements : List String) : List String :=
  (elements.reverse.dropWhile (· == "")).reverse

/-- The elements but for those that are empty or name the directory itself. -/
def elements (path : String) : List String :=
  (allElements path).filter fun e => e != "" && e != "."

/-- The last element, unless it leads to a parent directory. -/
def lastName? (path : String) : Option String :=
  match (elements path).getLast? with
  | some ".." | none => none
  | some name => some name

/-- The path of `name` in a directory; an absolute name stands for itself. -/
def join (dir name : String) : String :=
  if name.toList.head? = some '/' ∨ dir = "" then name
  else if dir.toList.getLast? = some '/' then dir ++ name
  else dir ++ "/" ++ name

/-- The last name of a path after it has been made absolute in the directory `here`, if there is one. An empty path
cannot be made absolute. -/
def lastNameIn? (here : Option String) (path : String) : Option String :=
  if path = "" then none
  else if path.toList.head? = some '/' then lastName? path
  else here.bind fun dir => lastName? (join dir path)

/-- What follows the last point of a name, unless nothing stands before that point. -/
def extension? (name : String) : Option String :=
  match Text.splitLast? '.' name.toList with
  | some (_ :: _,ext) => some (String.ofList ext)
  | _ => none

end ProxyGen.Path
