import ProxyGen.Universe.Underlying

/-!
What is known of a type once it has been looked up: its key and its shape.
-/
namespace ProxyGen

structure Descriptor where
  key : String
  kind : Kind
  depth : Nat
  type : TypeExpr
  deriving DecidableEq

namespace Descriptor

def ofType (u : Universe) (t : TypeExpr) : Except Error Descriptor :=
  match u.shape t with
  | .error e => .error e
  | .ok s => .ok ⟨t.key,s.kind,s.depth,t⟩

def isInterface (d : Descriptor) : Bool := d.kind == .interface

end Descriptor
end ProxyGen
