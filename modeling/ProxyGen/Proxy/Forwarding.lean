import ProxyGen.Proxy.Constructor

/-!
Forwarding methods. A method of a proxy takes its arguments out of the proxies they stand in, calls the
method of the value inside, and wraps what comes back; errors go through the transformer.
-/
namespace ProxyGen.Plan

open Code

/-- How one parameter is declared, made ready and passed on. -/
structure Argument where
  param : ParamDecl
  before : List Stmt
  value : Expr

/-- Takes the value out of its proxy where `holder` finds it to be one, and leaves any other value of the
interface as it is. -/
def takeOut (p : Plan) (e : Entry) (holder : String) (value target : Expr) : Stmt :=
  .ifThen
    (some (.define [holder,"ok"] (.typeAssert value (.pointer (.name (p.proxyName e))))))
    (.ident "ok")
    [.assign target (.selector (.ident holder) innerName)]

/-- The value in a hard proxy, or its address where a reference is called for. -/
def hardInner (e : Entry) (value : Expr) : Expr :=
  let inner := Expr.selector value innerName
  if 0 < e.descriptor.depth then .addrOf inner else inner

def argument (p : Plan) (name : String) (t : TypeExpr) : Argument :=
  let value := Expr.ident name
  let param : ParamDecl := ⟨name,p.wrappedType t,false⟩
  match p.entryAtLeast? .soft t with
  | none => ⟨param,[],value⟩
  | some e =>
    if e.status = .soft then ⟨param,[p.takeOut e (name ++ "Proxy") value value],value⟩
    else ⟨param,[],hardInner e value⟩

/-- Passes a variadic parameter on; elements in proxies are taken out into a new slice. -/
def variadicArgument (p : Plan) (name : String) (elem : TypeExpr) : Argument :=
  let value := Expr.ident name
  let param : ParamDecl := ⟨name,p.wrappedType elem,true⟩
  match p.entryAtLeast? .soft elem with
  | none => ⟨param,[],value⟩
  | some e =>
    let copied := name ++ "Inner"
    let item := Expr.ident "elem"
    let slot := Expr.index (.ident copied) (.ident "idx")
    let length := Expr.call (.ident "len") [value] false
    let body :=
      if e.status = .soft then [.assign slot item,p.takeOut e "elemProxy" item slot]
      else [.assign slot (hardInner e item)]
    ⟨param,
      [.define [copied] (.make (.slice (.ofType p.types elem)) length),
        .range "idx" "elem" value body],
      .ident copied⟩

/-- The arguments of a call from the parameter of number `index` on. The last one of a variadic method
must be a slice. -/
def arguments (p : Plan) (e : Entry) (m : Selection) :
    Nat → List Param → Except Error (List Argument)
  | _, [] => .ok []
  | index, param :: rest =>
    let name := Naming.paramName param.name index
    if m.signature.variadic && rest.isEmpty then
      match param.type with
      | .slice elem => .ok [p.variadicArgument name elem]
      | t => .error (.notForwardable e.key m.name name t)
    else
      match p.arguments e m (index + 1) rest with
      | .error err => .error err
      | .ok args => .ok (p.argument name param.type :: args)

/-- The receiver of a forwarding method. A name that means nothing gives way to one that no parameter is
likely to have. -/
def receiverName (proxy : String) (m : Selection) : String :=
  match m.receiverName with
  | none | some "" | some "_" => "iFace" ++ proxy
  | some name => name

def returned (p : Plan) (transform value : Expr) (t : TypeExpr) : Expr :=
  if t.isError then .call transform [value] false
  else match p.entryAtLeast? .soft t with
    | some e =>
      .call (.ident (Naming.constructorName p.types e.descriptor)) [value,transform] false
    | none => value

def resultName (index : Nat) : String := "r" ++ toString index

def callAndReturn (p : Plan) (call transform : Expr) (results : List Param) : List Stmt :=
  if results.isEmpty then [.expr call]
  else
    let names := (List.range results.length).map resultName
    let values := (names.zip results).map fun (name,r) => p.returned transform (.ident name) r.type
    [.define names call,.ret values]

/-- The method of a proxy that forwards `m` to the value inside. -/
def forward (p : Plan) (e : Entry) (proxy : String) (m : Selection) : Except Error FuncDecl := do
  let args ← p.arguments e m 0 m.signature.params
  let receiver := receiverName proxy m
  let self := Expr.ident receiver
  let method := Expr.selector (.selector self innerName) m.name
  let call := Expr.call method (args.map (·.value)) m.signature.variadic
  let transform := Expr.selector self transformerName
  return {
    receiver := some ⟨receiver,if 0 < e.descriptor.depth then .pointer (.name proxy) else .name proxy⟩
    name := m.name
    params := args.map (·.param)
    results := m.signature.results.map fun r => p.wrappedType r.type
    body := args.flatMap (·.before) ++ p.callAndReturn call transform m.signature.results }

end ProxyGen.Plan
