import ProxyGen.Catalog.Descriptor
import ProxyGen.Digest
import ProxyGen.Text.CaseMap

/-!
Names in generated code. They hang on the type alone, so that every run gives the same ones.
-/
namespace ProxyGen.Naming

/-- The name of the proxy for a type and all references to it: package and type name, or a fingerprint
where the type has no name. -/
def proxyName (u : Universe) (t : TypeExpr) : String :=
  match t.root with
  | .named n => Text.capitalize (u.packageName n.path) ++ n.name
  | root => "Anon" ++ Digest.fingerprint root.key

def fileName (u : Universe) (t : TypeExpr) : String :=
  match t.root with
  | .named n => Text.lower (u.packageName n.path ++ "_" ++ n.name ++ ".go")
  | root => "anon" ++ Digest.fingerprint root.key ++ ".go"

/-- What tells the constructors of one proxy apart. The plain name goes to the interface itself and to
the single reference to any other type; each further reference adds a mark. -/
def variantSuffix (kind : Kind) (depth : Nat) : String :=
  match kind, depth with
  | .interface, depth => String.join (List.replicate depth "Ptr")
  | _, 0 => "Value"
  | _, depth + 1 => String.join (List.replicate depth "Ptr")

def constructorName (u : Universe) (d : Descriptor) : String :=
  "Wrap" ++ proxyName u d.type ++ variantSuffix d.kind d.depth

/-- Parameters without a usable name are numbered. -/
def paramName (name : Option String) (index : Nat) : String :=
  match name with
  | none | some "" | some "_" => "p" ++ toString index
  | some name => name

end ProxyGen.Naming
