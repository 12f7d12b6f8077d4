import ProxyGen.Proxy.Plan

/-!
Constructors of proxies. A constructor answers nil when any layer of its argument is nil; otherwise it
stores the value below all references, and returns the proxy under as many references as the
argument has nil-able layers.
-/
namespace ProxyGen.Plan

open Code

def innerName : String := "inner"

def transformerName : String := "errorTransformer"

def derefs : Nat → Expr → Expr
  | 0, e => e
  | n + 1, e => derefs n (.deref e)

/-- Whether a value or anything below it is nil, from the outermost of its layers inwards. The first
layer is tested in `cond`, and `e` is the value there. -/
def nilTests : Nat → (cond e : Expr) → Expr
  | 0, cond, _ => cond
  | n + 1, cond, e => nilTests n (cond.or (Expr.deref e).isNil) (.deref e)

/-- Returns nil for an argument with a nil layer. -/
def nilGuard : Nat → List Stmt
  | 0 => []
  | n + 1 =>
    let inner := Expr.ident innerName
    [.ifThen none (nilTests n inner.isNil inner) [.ret [.nil]],.blank]

def levelName : Nat → String
  | 0 => "proxy"
  | n + 1 => "proxyRef" ++ toString (n + 1)

/-- References to the proxy from level `level` on, `n` of them, the last of which is returned. -/
def referTo : Nat → Nat → List Stmt
  | 0, level => [.ret [.addrOf (.ident (levelName level))]]
  | n + 1, level =>
    .define [levelName (level + 1)] (.addrOf (.ident (levelName level))) :: referTo n (level + 1)

def returnProxy (literal : Expr) : Nat → List Stmt
  | 0 => [.ret [literal]]
  | 1 => [.ret [.addrOf literal]]
  | n + 2 => .define [levelName 0] (.addrOf literal) :: referTo n 0

def constructorBody (d : Descriptor) (proxy : String) : List Stmt :=
  let stored := derefs d.depth (.ident innerName)
  let literal := Expr.composite (.name proxy)
    [(innerName,stored),(transformerName,.ident transformerName)]
  nilGuard (layers d) ++ returnProxy literal (layers d)

def constructor (p : Plan) (e : Entry) (proxy : String) : FuncDecl where
  receiver := none
  name := Naming.constructorName p.types e.descriptor
  params :=
    [⟨innerName,.ofType p.types e.descriptor.type,false⟩,⟨transformerName,p.transformer,false⟩]
  results := [p.wrappedType e.descriptor.type]
  body := constructorBody e.descriptor proxy

end ProxyGen.Plan
