import ProxyGen.Code.Printer
import ProxyGen.Proxy.Forwarding

/-!
Generated files. Each group with a member that needs a proxy has one: the proxy itself, and for each such
member a constructor and the methods it owns.
-/
namespace ProxyGen

def generatedComment : String := "ErrProxy Generated File, DO NOT EDIT"

/-- A generated file. The variants are the keys of the members that have a constructor. -/
structure OutputUnit where
  fileName : String
  rootKey : String
  proxyName : String
  variants : List String
  file : Code.File

def OutputUnit.text (unit : OutputUnit) : String := unit.file.text

namespace Plan

open Code

/-- The listed methods of an entry that it still owns. -/
def ownedMethods (p : Plan) (e : Entry) : List Selection :=
  e.methods.filter fun m => p.catalog.owns e m.name

def variantDecls (p : Plan) (proxy : String) (e : Entry) : Except Error (List Decl) := do
  let methods ← (p.ownedMethods e).mapM fun m => p.forward e proxy m
  return .func (p.constructor e proxy) :: methods.map .func

def proxyDecl (p : Plan) (proxy : String) (root : TypeExpr) : Decl :=
  .struct proxy [⟨innerName,.ofType p.types root⟩,⟨transformerName,p.transformer⟩]

def unit (p : Plan) (g : Group) : Except Error OutputUnit := do
  let root := g.descriptor.type
  let proxy := Naming.proxyName p.types root
  let members := p.catalog.wrappedMembers g
  let decls ← members.mapM (p.variantDecls proxy)
  return {
    fileName := Naming.fileName p.types root
    rootKey := g.key
    proxyName := proxy
    variants := members.map (·.key)
    file := .ofDecls p.target.package (some generatedComment)
      (p.proxyDecl proxy root :: decls.flatten) }

/-- The names that units take up, each with the root it belongs to. -/
def takenNames (units : List OutputUnit) : List (String × String) :=
  units.flatMap fun unit => [(unit.fileName,unit.rootKey),(unit.proxyName,unit.rootKey)]

/-- The first name that occurs among those before it; these stand in `before`. -/
def collision? (before : List (String × String)) : List (String × String) → Option Error
  | [] => none
  | (name,root) :: rest =>
    match before.lookup name with
    | some first => some (.nameCollision name first root)
    | none => collision? ((name,root) :: before) rest

/-- All generated files in the order of their names. -/
def units (p : Plan) : Except Error (List OutputUnit) := do
  let units ← p.catalog.wrappedGroups.mapM p.unit
  let units := Text.sortBy (·.fileName) units
  match collision? [] (takenNames units) with
  | some e => throw e
  | none => return units

end Plan
end ProxyGen
