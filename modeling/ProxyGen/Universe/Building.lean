import ProxyGen.Description.Basic
import ProxyGen.Universe.Basic

/-!
The universe of a description. Every type text is read in the package in which it stands; the first
fault in the order of writing is reported.
-/
namespace ProxyGen.Universe

def readType (home text : String) : Except Error TypeExpr :=
  match TypeExpr.parse (some home) text with
  | .ok t => .ok t
  | .error f => .error (.malformedType text f)

def readParam (home : String) (p : Description.Param) : Except Error Param := do
  return ⟨p.name?,← readType home p.typeText⟩

/-- Interface methods have neither a pointer receiver nor a receiver name. -/
def readMethod (home : String) (kind : Kind) (m : Description.Method) : Except Error MethodDecl := do
  let params ← m.params.mapM (readParam home)
  let results ← m.results.mapM (readParam home)
  if m.variadic && params.isEmpty then
    throw (.variadicWithoutParams home m.name)
  return {
    name := m.name
    pointerReceiver := kind != .interface && m.receiver == .pointer
    receiverName := if kind == .interface then none else m.receiverName
    signature := ⟨params,results,m.variadic⟩ }

def readUnderlying (home : String) (t : Description.TypeSpec) : Except Error TypeExpr :=
  match t.kind with
  | .struct => .ok .struct
  | .interface => .ok .interface
  | .other =>
    match t.underlying with
    | none => .error (.missingUnderlying ⟨home,t.name⟩)
    | some text => readType home text

/-- Reads a type that follows the types of `before` in its package. -/
def readTypeSpec (home : String) (before : List TypeDecl) (t : Description.TypeSpec) :
    Except Error TypeDecl := do
  let underlying ← readUnderlying home t
  let embeds ← t.embeds.mapM (readType home)
  let methods ← t.methods.mapM (readMethod home t.kind)
  if before.any (·.name == t.name) then
    throw (.duplicateType ⟨home,t.name⟩)
  return ⟨t.name,t.kind,underlying,embeds,methods⟩

/-- The name in the package clause: an empty one counts as not given. -/
def clauseName (p : Description.Package) : String :=
  match p.name with
  | none | some "" => lastElement p.path
  | some name => name

def readPackage (before : List Package) (p : Description.Package) : Except Error Package := do
  if before.any (·.path == p.path) then
    throw (.duplicatePackage p.path)
  let types ← p.types.foldlM (fun before t => do return before ++ [← readTypeSpec p.path before t]) []
  return ⟨p.path,clauseName p,types⟩

def ofDescription (d : Description) : Except Error Universe := do
  let packages ← d.packages.foldlM (fun before p => do return before ++ [← readPackage before p]) []
  return ⟨packages⟩

end ProxyGen.Universe
