import ProxyGen.Proofs.Returning

/-! What a forwarding method does when it is run on a proxy. It hands its arguments to the method of the value
inside, calls that once, and returns the values that come back, errors by way of the transformer and values that
need a proxy by way of their constructors. -/
namespace ProxyGen

open Code

namespace Code

def FuncDecl.names (f : FuncDecl) : List String := f.receiver.toList.map (·.name) ++ f.params.map (·.name)

/-- The receiver and the parameters have names of their own, other than those that the body introduces. These are
the variables that it defines and the functions that it calls, which differ from each other too. -/
structure FuncDecl.Hygienic (f : FuncDecl) : Prop where
  distinct : f.names.Nodup
  own : ∀ name ∈ f.names,
    name ∉ Stmt.bindsOfAll f.body ∧ Reference.call name ∉ Stmt.referencesOfAll f.body
  helpers : ∀ name ∈ Stmt.bindsOfAll f.body, Reference.call name ∉ Stmt.referencesOfAll f.body

theorem FuncDecl.Hygienic.free {f : FuncDecl} (hygienic : f.Hygienic) {name : String}
    (called : Reference.call name ∈ Stmt.referencesOfAll f.body) :
    name ∉ f.names ∧ name ∉ Stmt.bindsOfAll f.body :=
  ⟨fun member => (hygienic.own name member).2 called,fun member => hygienic.helpers name member called⟩

/-- A proxy around a value that has a method of the name. -/
structure Value.Proxies (handle inner transform : Value) (name : String) : Prop where
  holds : handle.select Plan.innerName = .ok inner
  transforms : handle.select Plan.transformerName = .ok transform
  offers : inner.select name = .ok (.method inner name)

/-- The method has as many results as it declares; the transformer and constructors have one. -/
structure Host.Answers (host : Host) (m : Selection) (inner transform : Value) : Prop where
  method : ∀ calls args, (host calls ⟨.method inner m.name,args,m.signature.variadic⟩).length =
    m.signature.results.length
  transformer : ∀ calls args, (host calls ⟨transform,args,false⟩).length = 1
  constructors : ∀ calls name args, (host calls ⟨.func name,args,false⟩).length = 1

end Code

namespace Plan

/-- Run on a proxy, the function calls the method once, on the value inside, and the arguments that are passed and
the values that are returned are as they should be. It fails if there are none such. -/
def Relays (p : Plan) (m : Selection) (f : FuncDecl) : Prop :=
  ∀ (host : Host) (self inner transform : Value), self.Proxies inner transform m.name →
    host.Answers m inner transform → ∀ (args : List Value) (calls : List Call) (returned : List Value)
      (after : List Call), f.run host (some self) args calls = .ok (returned,after) ↔
        ∃ passed, p.Delivered (Signature.declared m.signature.variadic m.signature.params) args passed ∧
          let call : Call := ⟨.method inner m.name,passed,m.signature.variadic⟩
          p.Returns host transform m.signature.results (host calls call) (call :: calls) returned after

/-- The call of the method of the value inside. -/
def innerCall (receiver : String) (m : Selection) (args : List Argument) : Expr :=
  .call (.selector (.selector (.ident receiver) innerName) m.name) (args.map (·.value)) m.signature.variadic

/-- What a method does once its arguments are ready. -/
def delegation (p : Plan) (receiver : String) (m : Selection) (args : List Argument) : List Stmt :=
  p.callAndReturn (innerCall receiver m args) (.selector (.ident receiver) transformerName) m.signature.results

section Method
variable {p : Plan} {host : Host} {e : Entry} {m : Selection} {args : List Argument} {receiver : String}
  {self inner transform : Value} {vars now : Vars} {calls : List Call} {params : List Param}
  {given passed returned : List Value} {after : List Call}

theorem length_delivered {params : List (TypeExpr × Bool)} (delivered : p.Delivered params given passed) :
    given.length = params.length := by
  induction delivered with
  | nil => rfl
  | cons _ _ ih => rw [List.length_cons,List.length_cons,ih]

theorem values_innerCall (known : vars.lookup receiver = some self) (proxies : self.Proxies inner transform m.name)
    (host : Host) (args : List Argument) (calls : List Call) :
    (innerCall receiver m args).values host vars calls =
      (Expr.valuesOfAll host vars (args.map (·.value)) calls).bind fun given =>
        .ok (host given.2 ⟨.method inner m.name,given.1,m.signature.variadic⟩,
          ⟨.method inner m.name,given.1,m.signature.variadic⟩ :: given.2) := by
  have held : (Expr.selector (.ident receiver) innerName).value host vars calls = .ok (inner,calls) := by
    rw [Expr.value_selector (Expr.value_ident known),proxies.holds]
    rfl
  have method : (Expr.selector (.selector (.ident receiver) innerName) m.name).value host vars calls =
      .ok (.method inner m.name,calls) := by
    rw [Expr.value_selector held,proxies.offers]
    rfl
  cases given : Expr.valuesOfAll host vars (args.map (·.value)) calls with
  | error fault => exact Expr.values_call_refused method given
  | ok result => exact Expr.values_call method given

theorem run_eq {f : FuncDecl} {r : Field} (method : f.receiver = some r)
    (lengths : f.params.length = given.length) :
    f.run host (some self) given calls = (Stmt.execAll host f.body
      ⟨(r.name :: f.params.map (·.name)).zip (self :: given),calls⟩).map fun out =>
        (out.2.getD [],out.1.calls) := by
  unfold FuncDecl.run State.define
  simp only [method,Option.toList_some,List.map_cons,List.map_nil,List.singleton_append,List.length_cons,
    List.length_map,lengths,if_true,bind,Except.bind,List.append_nil]
  cases Stmt.execAll host f.body _ <;> rfl

section Delegation
variable (known : vars.lookup receiver = some self) (proxies : self.Proxies inner transform m.name)
  (answers : host.Answers m inner transform) (distinct : p.catalog.keys.Nodup)
  (apart : receiver ∉ Argument.touched args ∧ receiver ∉ resultNames m.signature.results.length)
  (free : ∀ key, Reference.call key ∈ Stmt.referencesOfAll (p.delegation receiver m args) →
    vars.lookup key = none ∧ key ∉ Argument.touched args ∧ key ∉ resultNames m.signature.results.length)
include known proxies answers distinct apart free

/-- With the arguments ready the method is called with them, and what it returns is returned. -/
theorem execAll_delegation_iff (kept : Vars.Keeps (Argument.touched args) vars now)
    (evaluated : Expr.valuesOfAll host now (args.map (·.value)) calls = .ok (passed,calls)) :
    (∃ s' out, Stmt.execAll host (p.delegation receiver m args) ⟨now,calls⟩ = .ok (s',out) ∧
      (out.getD [],s'.calls) = (returned,after)) ↔
        let call : Call := ⟨.method inner m.name,passed,m.signature.variadic⟩
        p.Returns host transform m.signature.results (host calls call) (call :: calls) returned after := by
  have still := (kept receiver apart.1).trans known
  have called := values_innerCall still proxies host args calls
  rw [evaluated] at called
  refine execAll_callAndReturn_iff called (answers.method _ _) still proxies.transforms distinct
    answers.transformer answers.constructors apart.2 fun key inside => ?_
  obtain ⟨missing,outside,other⟩ := free key inside
  exact ⟨(kept key outside).trans missing,other⟩

theorem execAll_body_iff {index : Nat} (made : p.arguments e m index params = .ok args)
    (bound : List.Forall₂ (fun a v => vars.lookup a.param.name = some v) args given)
    (clear : Argument.Clear args vars) :
    (∃ s' out, Stmt.execAll host (args.flatMap (·.before) ++ p.delegation receiver m args) ⟨vars,calls⟩ =
      .ok (s',out) ∧ (out.getD [],s'.calls) = (returned,after)) ↔
        ∃ passed, p.Delivered (Signature.declared m.signature.variadic params) given passed ∧
          let call : Call := ⟨.method inner m.name,passed,m.signature.variadic⟩
          p.Returns host transform m.signature.results (host calls call) (call :: calls) returned after := by
  have hands : p.Hands host (Signature.declared m.signature.variadic params) args ⟨vars,calls⟩ given :=
    hands_of_arguments distinct made bound clear
  rw [Stmt.execAll_append]
  constructor
  · rintro ⟨s',out,ran,equal⟩
    obtain ⟨reached,first,second⟩ := bind_ok ran
    obtain ⟨now,rfl,kept⟩ := hands.kept first
    obtain ⟨_,called⟩ := called_of_execAll second
    have still := (kept receiver apart.1).trans known
    change (innerCall receiver m args).values host now calls = _ at called
    rw [values_innerCall still proxies host] at called
    obtain ⟨⟨passed,calls'⟩,evaluated,_⟩ := bind_ok called
    have evaluates : Argument.evaluated host args ⟨vars,calls⟩ = .ok (passed,calls') := by
      unfold Argument.evaluated
      rw [first]
      exact evaluated
    obtain ⟨rfl,delivered⟩ := (hands.passed _).mp evaluates
    exact ⟨passed,delivered,(execAll_delegation_iff known proxies answers distinct apart free kept
      evaluated).mp ⟨s',out,second,equal⟩⟩
  · rintro ⟨passed,delivered,returns⟩
    have evaluates := (hands.passed (passed,calls)).mpr ⟨rfl,delivered⟩
    obtain ⟨reached,first,evaluated⟩ := bind_ok evaluates
    obtain ⟨now,rfl,kept⟩ := hands.kept first
    rw [first]
    exact (execAll_delegation_iff known proxies answers distinct apart free kept evaluated).mpr returns

end Delegation

theorem relays_of_forward (distinct : p.catalog.keys.Nodup) {proxy : String} {f : FuncDecl}
    (ok : p.forward e proxy m = .ok f) (hygienic : f.Hygienic) : p.Relays m f := by
  obtain ⟨args,made,ok⟩ := bind_ok ok
  cases ok
  intro host self inner transform proxies answers given calls returned after
  -- What is known, what is defined and what is called by name keep apart; each step below needs a part of that.
  have free := @FuncDecl.Hygienic.free _ hygienic
  obtain ⟨nodup,own,_⟩ := hygienic
  have named : (args.map (·.param)).map (·.name) = args.map (·.param.name) := List.map_map ..
  simp only [FuncDecl.names,Option.toList_some,List.map_cons,List.map_nil,List.singleton_append,named,
    Stmt.bindsOfAll_append,binds_callAndReturn,List.mem_append,not_or] at nodup own free
  by_cases lengths : args.length = given.length
  · have aligned : (receiverName proxy m :: args.map (·.param.name)).length = (self :: given).length := by
      simp [lengths]
    have shown := Vars.lookup_zip nodup aligned []
    have hidden {name : String} (outside : name ∉ receiverName proxy m :: args.map (·.param.name)) :=
      Vars.lookup_zip_other outside (self :: given) []
    rw [List.append_nil] at shown hidden
    obtain ⟨known,bound⟩ := List.forall₂_cons.mp shown
    rw [run_eq rfl (by simpa using lengths),map_ok_iff]
    dsimp only
    rw [named]
    refine Iff.trans ?_ (execAll_body_iff known proxies answers distinct ?apart ?free made
      (List.forall₂_map_left_iff.mp bound) ?clear)
    case clear =>
      refine ⟨(List.nodup_cons.mp nodup).2,fun a member => ?_,fun name inside => ?_⟩
      · exact (own a.param.name (List.mem_cons_of_mem _ (List.mem_map_of_mem member))).1.1
      · exact hidden (free (mem_references_append.mpr (.inl inside))).1
    case apart =>
      obtain ⟨⟨before,block⟩,_⟩ := own _ List.mem_cons_self
      rw [Argument.touched,List.mem_append,not_or]
      exact ⟨⟨(List.nodup_cons.mp nodup).1,before⟩,block⟩
    case free =>
      intro key inside
      obtain ⟨outside,before,block⟩ := free (mem_references_append.mpr (.inr inside))
      rw [Argument.touched,List.mem_append,not_or]
      exact ⟨hidden outside,⟨fun param => outside (List.mem_cons_of_mem _ param),before⟩,block⟩
    rw [Prod.exists]
    exact Iff.rfl
  · have other : (Signature.declared m.signature.variadic m.signature.params).length ≠ given.length := by
      rw [(arguments_declared made).length_eq]
      exact lengths
    constructor
    · intro ran
      obtain ⟨start,bound,_⟩ := bind_ok ran
      simp [State.define,lengths] at bound
    · rintro ⟨passed,delivered,_⟩
      exact absurd (length_delivered delivered).symm other

end Method
end Plan

namespace Depot
open Sample (returning close)

def depot : NamedType := ⟨"p","Depot"⟩

def item : NamedType := ⟨"p","Item"⟩

def port : NamedType := ⟨"p","Port"⟩

def trade : Signature where
  params := [⟨some "count",.basic "int"⟩,⟨some "sample",.named item⟩,⟨some "via",.named port⟩,
    ⟨some "lot",.slice (.named item)⟩]
  results := [⟨none,.named item⟩,⟨none,.named port⟩,⟨none,.basic "int"⟩,⟨none,.error⟩]
  variadic := true

/-- A depot trades items by way of a port. Items are hard and ports are soft. -/
def types : Universe := ⟨[⟨"p","p",[
  ⟨"Depot",.interface,.interface,[],[⟨"Trade",false,none,trade⟩]⟩,
  ⟨"Item",.struct,.struct,[],[⟨"Close",false,none,close⟩]⟩,
  ⟨"Port",.interface,.interface,[],[⟨"Close",false,none,close⟩]⟩]⟩]⟩

def depotEntry (s : Status) : Entry := ⟨⟨"p.Depot",.interface,0,.named depot⟩,"p.Depot",s,
  [⟨"Trade",none,trade,false⟩]⟩

def itemEntry : Entry := ⟨⟨"p.Item",.struct,0,.named item⟩,"p.Item",.hard,[⟨"Close",none,close,false⟩]⟩

def portEntry : Entry := ⟨⟨"p.Port",.interface,0,.named port⟩,"p.Port",.soft,[⟨"Close",none,close,false⟩]⟩

def depotGroup : Group := ⟨⟨"p.Depot",.interface,0,.named depot⟩,[("Trade",⟨"p.Depot",true⟩)],["p.Depot"]⟩

def itemGroup : Group := ⟨⟨"p.Item",.struct,0,.named item⟩,[("Close",⟨"p.Item",true⟩)],["p.Item"]⟩

def portGroup : Group := ⟨⟨"p.Port",.interface,0,.named port⟩,[("Close",⟨"p.Port",true⟩)],["p.Port"]⟩

def catalog (depot : Status) : Catalog where
  entries := [depotEntry depot,itemEntry,portEntry]
  groups := [depotGroup,itemGroup,portGroup]
  edges := [("p.Port","p.Depot"),("p.Item","p.Depot")]

theorem keys : depot.key = "p.Depot" ∧ item.key = "p.Item" ∧ port.key = "p.Port" := by decide +kernel

theorem underlyings : types.underlying depot = .ok .interface ∧ types.underlying item = .ok .struct ∧
    types.underlying port = .ok .interface := by
  refine ⟨?_,?_,?_⟩ <;> cbv

theorem methods : types.methodSet (.named depot) = .ok (depotEntry .none).methods ∧
    types.methodSet (.named item) = .ok itemEntry.methods ∧
    types.methodSet (.named port) = .ok portEntry.methods := by
  refine ⟨?_,?_,?_⟩ <;> cbv

open Evaluation in
theorem walk_types : Analysis.walk types (.named depot) [] =
    .ok ⟨catalog .soft,[],["p.Port","p.Item","p.Depot"]⟩ := by
  have paths : depot.path = "p" ∧ item.path = "p" ∧ port.path = "p" := ⟨rfl,rfl,rfl⟩
  have exported : isExported "Trade" = true ∧ isExported "Close" = true := by decide +kernel
  simp [paths,keys,underlyings,methods,exported,depotEntry,itemEntry,portEntry,trade,returning,close]
  rfl

theorem run_types : Analysis.run types (.named depot) [] = .ok ⟨catalog .hard,3,1⟩ := by
  apply Analysis.run_of_walk walk_types
  cbv

def plan : Plan := ⟨catalog .hard,types,⟨"out","","Transform"⟩⟩

theorem grown : Catalog.Grown types (catalog .hard) := .of_run run_types

theorem wrappedGroups_plan : plan.catalog.wrappedGroups = [depotGroup,itemGroup,portGroup] := by
  apply Text.sortBy_eq
  · decide
  · decide

theorem fileNames : Naming.fileName types (.named depot) = "p_depot.go" ∧
    Naming.fileName types (.named item) = "p_item.go" ∧ Naming.fileName types (.named port) = "p_port.go" := by
  decide +kernel

theorem proxyNames : Naming.proxyName types (.named depot) = "PDepot" ∧
    Naming.proxyName types (.named item) = "PItem" ∧ Naming.proxyName types (.named port) = "PPort" := by
  decide +kernel

theorem entry_item : plan.entryAtLeast? .soft (.named item) = some itemEntry :=
  Plan.entryAtLeast?_of_mem grown.wellFormed.distinct (by simp [plan,catalog]) keys.2.1.symm (by decide)

theorem entry_port : plan.entryAtLeast? .soft (.named port) = some portEntry :=
  Plan.entryAtLeast?_of_mem grown.wellFormed.distinct (by simp [plan,catalog]) keys.2.2.symm (by decide)

theorem entry_int : plan.entryAtLeast? .soft (.basic "int") = none := by decide +kernel

/-- The `Trade` that is generated. -/
def trading : FuncDecl where
  receiver := some ⟨"iFacePDepot",.name "PDepot"⟩
  name := "Trade"
  params := [⟨"count",.name "int",false⟩,⟨"sample",.name "PItem",false⟩,⟨"via",.qualified "p" "p" "Port",false⟩,
    ⟨"lot",.name "PItem",true⟩]
  results := [.name "PItem",.qualified "p" "p" "Port",.name "int",.name "error"]
  body :=
    let self := Expr.ident "iFacePDepot"
    let transformer := Expr.selector self Plan.transformerName
    [.ifThen (some (.define ["viaProxy","ok"] (.typeAssert (.ident "via") (.pointer (.name "PPort")))))
        (.ident "ok") [.assign (.ident "via") (.selector (.ident "viaProxy") Plan.innerName)],
      .define ["lotInner"] (.make (.slice (.qualified "p" "p" "Item")) (.call (.ident "len") [.ident "lot"] false)),
      .range "idx" "elem" (.ident "lot")
        [.assign (.index (.ident "lotInner") (.ident "idx")) (.selector (.ident "elem") Plan.innerName)],
      .define ["r0","r1","r2","r3"] (.call (.selector (.selector self Plan.innerName) "Trade")
        [.ident "count",.selector (.ident "sample") Plan.innerName,.ident "via",.ident "lotInner"] true),
      .ret [.call (.ident "WrapPItemValue") [.ident "r0",transformer] false,
        .call (.ident "WrapPPort") [.ident "r1",transformer] false,.ident "r2",
        .call transformer [.ident "r3"] false]]

theorem forward_trade : plan.forward (depotEntry .hard) "PDepot" ⟨"Trade",none,trade,false⟩ = .ok trading := by
  have item : plan.wrappedType (.named item) = .name "PItem" := by
    have member : itemEntry ∈ plan.catalog.entries := by simp [plan,catalog]
    have same : itemEntry.key = (TypeExpr.named Depot.item).key := keys.2.1.symm
    rw [Plan.wrappedType_of_hard grown.wellFormed.distinct member same rfl]
    exact congrArg TypeRef.name proxyNames.2.1
  have port : plan.wrappedType (.named port) = .qualified "p" "p" "Port" := by decide +kernel
  have int : plan.wrappedType (.basic "int") = .name "int" := by decide +kernel
  have error : plan.wrappedType .error = .name "error" := by decide +kernel
  have ref : TypeRef.ofType plan.types (.named Depot.item) = .qualified "p" "p" "Item" := by decide +kernel
  simp [Plan.forward,Plan.arguments,trade,Plan.argument,Plan.variadicArgument,Naming.paramName,
    entry_item,entry_port,entry_int,item,port,int,error,ref]
  rfl

theorem plan_units : ∃ units, plan.units = .ok units := by
  have variadic : ∀ proxy, ∃ f, plan.forward (depotEntry .hard) proxy ⟨"Trade",none,trade,false⟩ = .ok f := by
    intro proxy
    unfold Plan.forward
    exact ⟨_,rfl⟩
  apply Plan.units_of_forwards plan
  · intro e member m listed proxy
    simp only [plan,catalog,List.mem_cons,List.not_mem_nil,or_false] at member
    rcases member with rfl | rfl | rfl
    · obtain rfl := List.mem_singleton.mp listed
      exact variadic proxy
    · obtain rfl := List.mem_singleton.mp listed
      exact Plan.forward_total plan _ proxy rfl
    · obtain rfl := List.mem_singleton.mp listed
      exact Plan.forward_total plan _ proxy rfl
  · rw [wrappedGroups_plan]
    simp only [plan,depotGroup,itemGroup,portGroup,List.map,fileNames]
    decide
  · rw [wrappedGroups_plan]
    simp [Plan.names,plan,depotGroup,itemGroup,portGroup,Group.key,fileNames,proxyNames,
      Plan.collision?,List.lookup_cons]

theorem trade_emitted {units : List OutputUnit} (generated : plan.units = .ok units) :
    ∃ unit ∈ units, Decl.func trading ∈ unit.file.decls := by
  have member : depotEntry .hard ∈ plan.catalog.entries := List.mem_cons_self
  obtain ⟨unit,among,_,variant,name⟩ := Plan.unit_of_wrapped grown.wellFormed generated member (by decide)
  have owned : ⟨"Trade",none,trade,false⟩ ∈ plan.ownedMethods (depotEntry .hard) := by decide
  have proxy : plan.proxyName (depotEntry .hard) = "PDepot" := proxyNames.1
  have forwards := forward_trade
  rw [← proxy,← name] at forwards
  have emits := ((Plan.unit_emits generated among grown.wellFormed.distinct).1 trading).mpr
    ⟨_,member,_,variant,owned,forwards⟩
  exact ⟨unit,among,emits.1⟩

theorem hygienic : trading.Hygienic := by
  have binds : Stmt.bindsOfAll trading.body = ["viaProxy","ok","lotInner","idx","elem","r0","r1","r2","r3"] := by
    simp [trading]
  have calls : Stmt.referencesOfAll trading.body = [.assertion (.pointer (.name "PPort")),.call "len",
      .call "WrapPItemValue",.call "WrapPPort"] := by
    simp [trading]
  have names : trading.names = ["iFacePDepot","count","sample","via","lot"] := rfl
  constructor
  · rw [names]
    decide
  · rw [names,binds,calls]
    decide
  · rw [binds,calls]
    decide

/-- The method answers with values of its own, and any function with what it is given. -/
def host : Host := fun _ c =>
  match c.callee with
  | .method _ _ => [.atom 10,.atom 11,.int 3,.atom 12]
  | _ => [.slice c.args]

def holding (proxy : String) (inner : Nat) : Value :=
  .struct (.name proxy) [(Plan.innerName,.atom inner),(Plan.transformerName,.atom 1)]

def given : List Value :=
  [.int 5,holding "PItem" 2,.boxed (.pointer (.name "PPort")) (.ref (holding "PPort" 3)),
    .slice [holding "PItem" 4,holding "PItem" 5]]

def passed : List Value := [.int 5,.atom 2,.atom 3,.slice [.atom 4,.atom 5]]

def returned : List Value :=
  [.slice [.atom 10,.atom 1],.slice [.atom 11,.atom 1],.int 3,.slice [.atom 12]]

/-- The calls that are made, the latest first. -/
def made : List Call :=
  [⟨.atom 1,[.atom 12],false⟩,⟨.func "WrapPPort",[.atom 11,.atom 1],false⟩,
    ⟨.func "WrapPItemValue",[.atom 10,.atom 1],false⟩,⟨.method (.atom 0) "Trade",passed,true⟩]

theorem given_delivered : plan.Delivered (Signature.declared true trade.params) given passed := by
  have item : itemEntry ∈ plan.catalog.entries := by simp [plan,catalog]
  have port : portEntry ∈ plan.catalog.entries := by simp [plan,catalog]
  have sameItem : itemEntry.key = (TypeExpr.named Depot.item).key := keys.2.1.symm
  have samePort : portEntry.key = (TypeExpr.named Depot.port).key := keys.2.2.symm
  have opened (n : Nat) : plan.Passes (.named Depot.item) (holding "PItem" n) (.atom n) :=
    .hard item sameItem rfl rfl
  have proxy : plan.proxyName portEntry = "PPort" := proxyNames.2.2
  refine .cons (.single (.plain ?_)) (.cons (.single (opened 2)) (.cons (.single ?_)
    (.cons (.each item sameItem (by decide) (.cons (opened 4) (.cons (opened 5) .nil))) .nil)))
  · exact Plan.unwrapped_of_none grown.wellFormed.distinct entry_int
  · exact .own port samePort rfl (by rw [proxy]) rfl

theorem results_returned : plan.Returns host (.atom 1) trade.results [.atom 10,.atom 11,.int 3,.atom 12]
    [⟨.method (.atom 0) "Trade",passed,true⟩] returned made := by
  have constructors : Naming.constructorName plan.types itemEntry.descriptor = "WrapPItemValue" ∧
      Naming.constructorName plan.types portEntry.descriptor = "WrapPPort" := by
    decide +kernel
  have item : itemEntry ∈ plan.catalog.entries := by simp [plan,catalog]
  have port : portEntry ∈ plan.catalog.entries := by simp [plan,catalog]
  have wrapsItem (calls : List Call) : plan.Returned host (.atom 1) (.named Depot.item) (.atom 10) calls
      (.slice [.atom 10,.atom 1]) (⟨.func "WrapPItemValue",[.atom 10,.atom 1],false⟩ :: calls) :=
    .wrapped rfl item keys.2.1.symm (by decide) (by rw [constructors.1]; rfl)
  have wrapsPort (calls : List Call) : plan.Returned host (.atom 1) (.named Depot.port) (.atom 11) calls
      (.slice [.atom 11,.atom 1]) (⟨.func "WrapPPort",[.atom 11,.atom 1],false⟩ :: calls) :=
    .wrapped rfl port keys.2.2.symm (by decide) (by rw [constructors.2]; rfl)
  have plain := Plan.unwrapped_of_none grown.wellFormed.distinct entry_int
  exact .cons (wrapsItem _) (.cons (wrapsPort _) (.cons (.plain rfl plain)
    (.cons (.transformed rfl rfl) (.nil _))))

end Depot

namespace Analysis
variable {u : Universe}

end Analysis
end ProxyGen
