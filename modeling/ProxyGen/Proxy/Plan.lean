import ProxyGen.Catalog.Basic
import ProxyGen.Code.Tree
import ProxyGen.Naming

/-!
What proxies are generated from, and the types that stand in their signatures: a type that needs a hard
proxy gives way to it, all others stay.
-/
namespace ProxyGen

/-- Where generated code lives, and the type of the values that transform errors. An empty path places that
type in the generated package itself. -/
structure Target where
  package : String
  transformerPath : String
  transformerType : String
  deriving DecidableEq

structure Plan where
  catalog : Catalog
  types : Universe
  target : Target

/-- A type written out; each of its names knows the package it comes from. -/
def Code.TypeRef.ofType (u : Universe) : TypeExpr → Code.TypeRef
  | .error => .name "error"
  | .basic text => .name text
  | .named n => .qualified n.path (u.packageName n.path) n.name
  | .pointer t => .pointer (ofType u t)
  | .slice t => .slice (ofType u t)
  | .array n t => .array n (ofType u t)
  | .map k v => .map (ofType u k) (ofType u v)
  | .chan d t => .chan d (ofType u t)
  | .struct => .name "struct\x7b\x7d"
  | .interface => .name "interface\x7b\x7d"

namespace Plan

open Code

/-- The nil-able layers of a type: its references and, for an interface, the interface value. -/
def layers (d : Descriptor) : Nat := d.depth + if d.isInterface then 1 else 0

def entryAtLeast? (p : Plan) (s : Status) (t : TypeExpr) : Option Entry :=
  (p.catalog.entry? t.key).filter fun e => decide (s ≤ e.status)

/-- The root type that an entry is grouped under. Types with equal keys share a group, which describes the
first of them. -/
def rootType (p : Plan) (e : Entry) : TypeExpr :=
  match p.catalog.group? e.root with
  | some g => g.descriptor.type
  | none => e.descriptor.type.root

def proxyName (p : Plan) (e : Entry) : String := Naming.proxyName p.types (p.rootType e)

def wrappedType (p : Plan) (t : TypeExpr) : TypeRef :=
  match p.entryAtLeast? .hard t with
  | some e => .pointers (layers e.descriptor) (.name (p.proxyName e))
  | none => .ofType p.types t

def transformer (p : Plan) : TypeRef :=
  let path := p.target.transformerPath
  if path.isEmpty then .name p.target.transformerType
  else .qualified path (lastElement path) p.target.transformerType

end Plan
end ProxyGen
