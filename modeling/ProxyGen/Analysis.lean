import ProxyGen.Catalog.Propagation
import ProxyGen.Walk.Classification

/-!
The analysis of a root type: a walk from the root, and the statuses spread over what it found.
-/
namespace ProxyGen

structure Analysis where
  catalog : Catalog
  visited : Nat
  upgrades : Nat

namespace Analysis

/-- The packages of a walk; that of the root is always among them. -/
def scopeOf (root : TypeExpr) (packages : List String) : List String :=
  match root.root with
  | .named n => if n.path ∈ packages then packages else packages ++ [n.path]
  | _ => packages

def walk (u : Universe) (root : TypeExpr) (packages : List String) : Except Walk.Halt Walk :=
  let scope := scopeOf root packages
  match (Walk.start .empty).seed u scope root with
  | .error h => .error h
  | .ok w => w.drain u scope

/-- Walks from `root` and spreads the statuses. -/
def run (u : Universe) (root : TypeExpr) (packages : List String) : Except Error Analysis :=
  match walk u root packages with
  | .error h => .error h.error
  | .ok w =>
    let (catalog,upgrades) := w.catalog.resolve
    .ok ⟨catalog,w.visited.length,upgrades⟩

end Analysis
end ProxyGen
