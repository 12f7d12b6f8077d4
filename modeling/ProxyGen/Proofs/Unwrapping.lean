import ProxyGen.Proofs.Construction

/-!
What becomes of hard arguments. A hard parameter is passed on as the inner field of its proxy, or the address of
that field. One reference to the proxy is seen through; a nil handle has no fields, and neither has a reference to
a reference.
-/
namespace ProxyGen

open Code

namespace Plan

theorem value_hardInner {host : Host} {vars : Vars} {calls : List Call} {name : String} {handle : Value}
    (bound : vars.lookup name = some handle) (e : Entry) :
    (hardInner e (.ident name)).value host vars calls = (handle.select innerName).map fun v =>
      (if 0 < e.descriptor.depth then .ref v else v,calls) := by
  have known : (Expr.ident name).value host vars calls = .ok (handle,calls) := Expr.value_ident bound
  have inner := Expr.value_selector known innerName
  simp only [hardInner]
  split
  · rw [Expr.value_addrOf rfl,inner]
    cases handle.select innerName <;> rfl
  · exact inner

theorem select_refs (proxy : String) (inner transform : Value) (n : Nat) :
    (Value.refs n (.struct (.name proxy) [(innerName,inner),(transformerName,transform)])).select innerName =
      if n ≤ 1 then .ok inner else .error .illTyped := by
  match n with
  | 0 | 1 | n + 2 => simp [Value.refs,Value.select]

theorem argument_of_hard {p : Plan} {e : Entry} (distinct : p.catalog.keys.Nodup)
    (member : e ∈ p.catalog.entries) (isHard : e.status = .hard) {t : TypeExpr} (same : e.key = t.key)
    (name : String) :
    p.argument name t = ⟨⟨name,p.wrappedType t,false⟩,[],hardInner e (.ident name)⟩ := by
  have found : p.entryAtLeast? .soft t = some e :=
    entryAtLeast?_of_mem distinct member same (isHard ▸ by decide)
  simp [argument,found,isHard]

theorem made_by_constructor {p : Plan} {e : Entry} {proxy : String} {host : Host} {calls calls' : List Call}
    {arg transform handle : Value} (ranges : arg.Ranges e.descriptor.kind e.descriptor.depth)
    (made : (p.constructor e proxy).run host none [arg,transform] calls = .ok ([handle],calls')) :
    Wraps e.descriptor proxy arg transform handle := by
  obtain ⟨other,ran,wraps⟩ := constructor_wraps p e proxy host calls ranges transform
  rw [ran] at made
  cases made
  exact wraps

/-- A handle is taken out again exactly if it is not nil and has at most one reference; what comes out is what
went in. -/
theorem unwraps_iff {u : Universe} {c : Catalog} (grown : Catalog.Grown u c) (target : Target) {p : Plan}
    (plan : p = ⟨c,u,target⟩) {e : Entry} (member : e ∈ c.entries) (isHard : e.status = .hard)
    {host : Host} {calls calls' : List Call} {arg transform handle : Value}
    (ranges : arg.Ranges e.descriptor.kind e.descriptor.depth)
    (made : (p.constructor e (p.proxyName e)).run host none [arg,transform] calls = .ok ([handle],calls'))
    {t : TypeExpr} (same : e.key = t.key) {name : String} {vars : Vars}
    (bound : vars.lookup name = some handle) (now : List Call) :
    (p.argument name t).before = [] ∧
      ((∃ result, (p.argument name t).value.value host vars now = .ok result) ↔
        handle ≠ .nil ∧ e.descriptor.depth + (if e.descriptor.kind = .interface then 1 else 0) ≤ 1) ∧
      ∀ result, (p.argument name t).value.value host vars now = .ok result →
        result = (arg,now) ∧ ∃ inner, arg = .refs e.descriptor.depth inner ∧
          handle.select innerName = .ok inner := by
  subst plan
  have taken := argument_of_hard (p := ⟨c,u,target⟩) grown.wellFormed.distinct member isHard same name
  have wraps := made_by_constructor ranges made
  rw [taken]
  refine ⟨rfl,?_⟩
  dsimp only
  rw [value_hardInner bound]
  by_cases nil : handle = .nil
  · subst nil
    simp [Value.select,Except.map]
  · obtain ⟨inner,rfl,shape⟩ := wraps.holds nil
    have selected := select_refs (proxyName ⟨c,u,target⟩ e) inner transform
      (e.descriptor.depth + if e.descriptor.kind = .interface then 1 else 0)
    rw [← shape] at selected
    rw [selected]
    by_cases within : e.descriptor.depth + (if e.descriptor.kind = .interface then 1 else 0) ≤ 1
    · have whole : (if 0 < e.descriptor.depth then .ref inner else inner) =
          Value.refs e.descriptor.depth inner := by
        obtain zero | one : e.descriptor.depth = 0 ∨ e.descriptor.depth = 1 := by omega
        · simp [zero,Value.refs]
        · simp [one,Value.refs]
      simp [Except.map,nil,within,whole]
    · simp [Except.map,within]

end Plan

namespace Linked

def conn : NamedType := ⟨"p","Conn"⟩

def join : Signature := ⟨[⟨none,.pointer (.named conn)⟩],[⟨none,.error⟩],false⟩

/-- A connection joins another one, which it takes by reference. -/
def types : Universe := ⟨[⟨"p","p",[⟨"Conn",.struct,.struct,[],[⟨"Join",true,none,join⟩]⟩]⟩]⟩

def connRefEntry : Entry := ⟨⟨"*p.Conn",.struct,1,.pointer (.named conn)⟩,"p.Conn",.hard,
  [⟨"Join",none,join,true⟩]⟩

def connEntry : Entry := ⟨⟨"p.Conn",.struct,0,.named conn⟩,"p.Conn",.none,[]⟩

def connGroup : Group := ⟨⟨"p.Conn",.struct,0,.named conn⟩,[("Join",⟨"*p.Conn",false⟩)],
  ["*p.Conn","p.Conn"]⟩

def catalog : Catalog := ⟨[connRefEntry,connEntry],[connGroup],[]⟩

def plan : Plan := ⟨catalog,types,⟨"out","","Transform"⟩⟩

theorem underlying_conn : types.underlying conn = .ok .struct := by decide +kernel

theorem shape_conn : types.shape (.named conn) = .ok ⟨.struct,0⟩ := by
  rw [Universe.shape_named underlying_conn]
  cbv

theorem key_conn : conn.key = "p.Conn" := by decide +kernel

open Evaluation in
theorem walk_types : Analysis.walk types (.named conn) [] = .ok ⟨catalog,[],["p.Conn","*p.Conn"]⟩ := by
  have methods : types.methodSet (.named conn) = .ok [] ∧
      types.methodSet (.pointer (.named conn)) = .ok [⟨"Join",none,join,true⟩] := by
    constructor <;> cbv
  have exported : isExported "Join" = true := by decide +kernel
  have path : conn.path = "p" := rfl
  simp [path,key_conn,underlying_conn,methods,exported,join]
  rfl

theorem run_types : Analysis.run types (.named conn) [] = .ok ⟨catalog,2,0⟩ := by
  apply Analysis.run_of_walk walk_types
  cbv

theorem proxyName_conn : Naming.proxyName types (.named conn) = "PConn" := by decide +kernel

theorem fileName_conn : Naming.fileName types (.named conn) = "p_conn.go" := by decide +kernel

theorem wrappedGroups_plan : plan.catalog.wrappedGroups = [connGroup] := by decide +kernel

theorem plan_units : ∃ units, plan.units = .ok units := by
  apply Plan.units_total plan (by decide)
  · rw [wrappedGroups_plan]
    simp
  · rw [wrappedGroups_plan]
    simp [Plan.names,plan,connGroup,Group.key,fileName_conn,proxyName_conn,Plan.collision?,
      List.lookup_cons]

theorem grown : Catalog.Grown types catalog := .of_run run_types

theorem proxyName_connRef : plan.proxyName connRefEntry = "PConn" := proxyName_conn

theorem key_connRef : connRefEntry.key = (TypeExpr.pointer (.named conn)).key := by decide +kernel

theorem argument_connRef : plan.argument "p0" (.pointer (.named conn)) =
    ⟨⟨"p0",.pointer (.name "PConn"),false⟩,[],.addrOf (.selector (.ident "p0") Plan.innerName)⟩ := by
  have member : connRefEntry ∈ plan.catalog.entries := List.mem_cons_self
  have distinct := grown.wellFormed.distinct
  rw [Plan.argument_of_hard distinct member rfl key_connRef,
    Plan.wrappedType_of_hard distinct member key_connRef rfl,proxyName_connRef]
  rfl

/-- The `Join` that is generated. -/
def joining : FuncDecl where
  receiver := some ⟨"iFacePConn",.pointer (.name "PConn")⟩
  name := "Join"
  params := [⟨"p0",.pointer (.name "PConn"),false⟩]
  results := [.name "error"]
  body :=
    let self := Expr.ident "iFacePConn"
    [.define ["r0"] (.call (.selector (.selector self Plan.innerName) "Join")
        [.addrOf (.selector (.ident "p0") Plan.innerName)] false),
      .ret [.call (.selector self Plan.transformerName) [.ident "r0"] false]]

theorem forward_join : plan.forward connRefEntry "PConn" ⟨"Join",none,join,true⟩ = .ok joining := by
  have argument := argument_connRef
  have name : Naming.paramName none 0 = "p0" := by decide
  have error : plan.wrappedType .error = .name "error" := by decide +kernel
  simp [Plan.forward,Plan.arguments,join,name,argument,error]
  rfl

theorem join_emitted {units : List OutputUnit} (generated : plan.units = .ok units) :
    ∃ unit ∈ units, Decl.func joining ∈ unit.file.decls := by
  have good : plan.catalog.WellFormed plan.types := grown.wellFormed
  have member : connRefEntry ∈ plan.catalog.entries := List.mem_cons_self
  obtain ⟨unit,among,_,variant,name⟩ := Plan.unit_of_wrapped good generated member (by decide)
  have owned : ⟨"Join",none,join,true⟩ ∈ plan.ownedMethods connRefEntry := by decide
  have forwards := forward_join
  rw [← proxyName_connRef,← name] at forwards
  have emits := ((Plan.unit_emits generated among good.distinct).1 joining).mpr
    ⟨connRefEntry,member,_,variant,owned,forwards⟩
  exact ⟨unit,among,emits.1⟩

def connRefRefEntry (s : Status) : Entry :=
  ⟨⟨"**p.Conn",.struct,2,.pointer (.pointer (.named conn))⟩,"p.Conn",s,[]⟩

/-- The catalog once references to references have been entered, and raised to a status. -/
def deeper (s : Status) : Catalog :=
  ⟨[connRefEntry,connEntry,connRefRefEntry s],
    [{ connGroup with members := ["*p.Conn","p.Conn","**p.Conn"] }],[]⟩

theorem grown_deeper : Catalog.Grown types (deeper .hard) := by
  have shape := Universe.shape_pointer (Universe.shape_pointer shape_conn)
  have registered : catalog.register types (.pointer (.pointer (.named conn))) none = .ok (deeper .none) := by
    simp [Catalog.register,Catalog.addEntry,Catalog.addGroup,Catalog.entry?,Catalog.group?,
      Catalog.modifyGroup,Descriptor.ofType,shape,TypeExpr.key,TypeExpr.root,Entry.key,Group.key,
      key_conn,catalog,connRefEntry,connEntry,connGroup]
    rfl
  have raised : (deeper .none).raise "**p.Conn" .hard = deeper .hard := by decide
  have entered : Catalog.Grown types (deeper .none) :=
    grown.tail (.register (.pointer (.pointer (.named conn))) none (by simp) registered)
  rw [← raised]
  exact entered.tail (.raise "**p.Conn" .hard)

def deeperPlan : Plan := ⟨deeper .hard,types,⟨"out","","Transform"⟩⟩

theorem argument_connRefRef : (deeperPlan.argument "p0" (.pointer (.pointer (.named conn)))).value =
    .addrOf (.selector (.ident "p0") Plan.innerName) := by
  have member : connRefRefEntry .hard ∈ deeperPlan.catalog.entries :=
    List.mem_cons_of_mem _ (List.mem_cons_of_mem _ List.mem_cons_self)
  have key : (connRefRefEntry .hard).key = (TypeExpr.pointer (.pointer (.named conn))).key := by decide +kernel
  rw [Plan.argument_of_hard grown_deeper.wellFormed.distinct member rfl key]
  rfl

end Linked

namespace Plan

/-- What is not nil comes out of its proxy as it went in. -/
theorem linked_unwraps : Catalog.Grown Linked.types Linked.catalog ∧
    Linked.connRefEntry ∈ Linked.catalog.entries ∧ Linked.connRefEntry.status = .hard ∧
    (Value.ref (.atom 0)).Ranges .struct 1 ∧ ∃ handle, handle ≠ .nil ∧
      (Linked.plan.constructor Linked.connRefEntry (Linked.plan.proxyName Linked.connRefEntry)).run
        (fun _ _ => []) none [.ref (.atom 0),.atom 1] [] = .ok ([handle],[]) ∧
      (Linked.plan.argument "p0" (.pointer (.named Linked.conn))).before = [] ∧
      (Linked.plan.argument "p0" (.pointer (.named Linked.conn))).value.value
        (fun _ _ => []) [("p0",handle)] [] = .ok (.ref (.atom 0),[]) := by
  have member : Linked.connRefEntry ∈ Linked.catalog.entries := List.mem_cons_self
  have ranges : (Value.ref (.atom 0)).Ranges .struct 1 := .ref (.plain (by decide) _)
  let handle := Value.ref (.struct (.name (Linked.plan.proxyName Linked.connRefEntry))
    [(innerName,.atom 0),(transformerName,.atom 1)])
  have made : (Linked.plan.constructor Linked.connRefEntry
      (Linked.plan.proxyName Linked.connRefEntry)).run (fun _ _ => []) none [.ref (.atom 0),.atom 1] [] =
        .ok ([handle],[]) := rfl
  have bound : List.lookup "p0" [("p0",handle)] = some handle := rfl
  obtain ⟨before,succeeds,result⟩ := unwraps_iff Linked.grown ⟨"out","","Transform"⟩ (p := Linked.plan) rfl
    member rfl ranges made Linked.key_connRef bound []
  obtain ⟨value,evaluated⟩ := succeeds.mpr ⟨nofun,by decide⟩
  rw [(result value evaluated).1] at evaluated
  exact ⟨Linked.grown,member,rfl,ranges,handle,nofun,made,before,evaluated⟩

/-- The constructor answers nil with nil, which nothing can be taken out of: given that handle, the generated
`Join` fails before it has called anything. Nor can anything be taken out of a reference to a reference. -/
theorem linked_fails : Analysis.run Linked.types (.named Linked.conn) [] = .ok ⟨Linked.catalog,2,0⟩ ∧
    Linked.connRefEntry ∈ Linked.catalog.entries ∧ Linked.connRefEntry.status = .hard ∧
    Value.nil.Ranges .struct 1 ∧
    (Linked.plan.constructor Linked.connRefEntry "PConn").run (fun _ _ => []) none [.nil,.atom 1] [] =
      .ok ([.nil],[]) ∧
    (Linked.plan.argument "p0" (.pointer (.named Linked.conn))).value.value
      (fun _ _ => []) [("p0",.nil)] [] = .error .nilDereference ∧
    (∃ units, Linked.plan.units = .ok units ∧ ∃ unit ∈ units,
      Decl.func Linked.joining ∈ unit.file.decls ∧ Linked.joining.run (fun _ _ => [])
        (some (.ref (.struct (.name "PConn") [(innerName,.atom 0),(transformerName,.atom 1)]))) [.nil] [] =
          .error .nilDereference) ∧
    Catalog.Grown Linked.types (Linked.deeper .hard) ∧
    Linked.connRefRefEntry .hard ∈ (Linked.deeper .hard).entries ∧
    ∃ handle, (Linked.deeperPlan.constructor (Linked.connRefRefEntry .hard) "PConn").run (fun _ _ => []) none
      [.ref (.ref (.atom 0)),.atom 1] [] = .ok ([handle],[]) ∧ handle ≠ .nil ∧
        (Linked.deeperPlan.argument "p0" (.pointer (.pointer (.named Linked.conn)))).value.value
          (fun _ _ => []) [("p0",handle)] [] = .error .illTyped := by
  have member : Linked.connRefEntry ∈ Linked.catalog.entries := List.mem_cons_self
  obtain ⟨units,generated⟩ := Linked.plan_units
  obtain ⟨unit,among,emitted⟩ := Linked.join_emitted generated
  refine ⟨Linked.run_types,member,rfl,.none 0,rfl,?_,⟨units,generated,unit,among,emitted,rfl⟩,
    Linked.grown_deeper,by simp [Linked.deeper],_,rfl,nofun,?_⟩
  · rw [Linked.argument_connRef]
    rfl
  · rw [Linked.argument_connRefRef]
    rfl

end Plan
end ProxyGen
