import ProxyGen.Proofs.Delegation

/-! The names that a forwarding method binds. It takes over the names of the declaration and makes up one for
whatever is blank: numbers for parameters and results, and the name of the proxy for the receiver. Names that
are made up differ from each other; that they differ from the declared ones is left to chance. -/
namespace ProxyGen

open Code

namespace Naming

/-- The name in a declaration, unless it is blank. -/
def given? : Option String → Option String
  | none | some "" | some "_" => none
  | some name => some name

theorem paramName_eq (name : Option String) (index : Nat) :
    paramName name index = (given? name).getD ("p" ++ toString index) := by
  unfold paramName given?
  split <;> simp_all

def paramNames : Nat → List Param → List String
  | _, [] => []
  | index, param :: rest => paramName param.name index :: paramNames (index + 1) rest

/-- The numbers of the blank parameters, as names. -/
def numbered : Nat → List Param → List String
  | _, [] => []
  | index, param :: rest =>
    match given? param.name with
    | none => ("p" ++ toString index) :: numbered (index + 1) rest
    | some _ => numbered (index + 1) rest

def givenNames (params : List Param) : List String := params.filterMap fun param => given? param.name

theorem paramNames_perm (index : Nat) (params : List Param) :
    (paramNames index params).Perm (givenNames params ++ numbered index params) := by
  induction params generalizing index with
  | nil => exact .nil
  | cons param rest ih =>
    rw [paramNames,numbered,givenNames,List.filterMap_cons,paramName_eq]
    cases given? param.name with
    | none => exact ((ih (index + 1)).cons _).trans List.perm_middle.symm
    | some name => exact (ih (index + 1)).cons _

theorem mem_numbered {index : Nat} {params : List Param} {name : String}
    (member : name ∈ numbered index params) : ∃ i ≥ index, name = "p" ++ toString i := by
  induction params generalizing index with
  | nil => cases member
  | cons param rest ih =>
    have later (inside : name ∈ numbered (index + 1) rest) : ∃ i ≥ index, name = "p" ++ toString i := by
      obtain ⟨i,above,equal⟩ := ih inside
      exact ⟨i,Nat.le_of_succ_le above,equal⟩
    rw [numbered] at member
    split at member
    · rcases List.mem_cons.mp member with equal | inside
      · exact ⟨index,Nat.le_refl _,equal⟩
      · exact later inside
    · exact later member

theorem numbered_nodup (index : Nat) (params : List Param) : (numbered index params).Nodup := by
  induction params generalizing index with
  | nil => exact List.nodup_nil
  | cons param rest ih =>
    rw [numbered]
    split
    · refine List.nodup_cons.mpr ⟨fun member => ?_,ih (index + 1)⟩
      obtain ⟨i,above,equal⟩ := mem_numbered member
      have same : index = i := toString_injective (String.append_right_inj "p" |>.mp equal)
      omega
    · exact ih (index + 1)

end Naming

namespace Selection
open Naming (given? givenNames numbered)

/-- The names in the declaration of a method. -/
def declaredNames (m : Selection) : List String :=
  (given? m.receiverName).toList ++ givenNames m.signature.params

/-- The name that stands in for that of the receiver. -/
def coinedReceiver (m : Selection) (proxy : String) : List String :=
  if (given? m.receiverName).isNone then ["iFace" ++ proxy] else []

/-- The names that are made up for a method of a proxy. -/
def coinedNames (m : Selection) (proxy : String) : List String :=
  m.coinedReceiver proxy ++ numbered 0 m.signature.params ++ Plan.resultNames m.signature.results.length

section Coined
variable {m : Selection} {proxy name : String}

theorem head?_coinedReceiver (member : name ∈ m.coinedReceiver proxy) : name.toList.head? = some 'i' := by
  unfold coinedReceiver at member
  split at member
  · obtain rfl := List.mem_singleton.mp member
    simp
  · cases member

theorem head?_numbered {index : Nat} {params : List Param} (member : name ∈ numbered index params) :
    name.toList.head? = some 'p' := by
  obtain ⟨i,_,rfl⟩ := Naming.mem_numbered member
  simp

theorem head?_resultNames {n : Nat} (member : name ∈ Plan.resultNames n) : name.toList.head? = some 'r' := by
  obtain ⟨i,_,rfl⟩ := List.mem_map.mp member
  simp [Plan.resultName]

end Coined

theorem coinedNames_nodup (m : Selection) (proxy : String) : (m.coinedNames proxy).Nodup := by
  have receiver : (m.coinedReceiver proxy).Nodup := by
    unfold coinedReceiver
    split <;> simp
  refine List.nodup_append.mpr ⟨List.nodup_append.mpr ⟨receiver,Naming.numbered_nodup _ _,?_⟩,
    Plan.resultNames_nodup _,?_⟩
  · rintro name first _ second rfl
    cases (head?_coinedReceiver first).symm.trans (head?_numbered second)
  · rintro name first _ second rfl
    rcases List.mem_append.mp first with first | first
    · cases (head?_coinedReceiver first).symm.trans (head?_resultNames second)
    · cases (head?_numbered first).symm.trans (head?_resultNames second)

end Selection

namespace Code

/-- The variables that a statement adds to the block it stands in. -/
def Stmt.defined : Stmt → List String
  | .define names _ => names
  | _ => []

/-- The names in the outermost block of a function: its receiver, its parameters and the variables that the body
defines outside of inner blocks. -/
def FuncDecl.bound (f : FuncDecl) : List String := f.names ++ f.body.flatMap Stmt.defined

end Code

namespace Plan
open Naming (given? paramNames)
variable {p : Plan} {e : Entry} {m : Selection} {proxy : String} {f : FuncDecl}

theorem receiverName_eq (proxy : String) (m : Selection) :
    receiverName proxy m = (given? m.receiverName).getD ("iFace" ++ proxy) := by
  unfold receiverName given?
  split <;> simp_all

theorem receiverName_cases (proxy : String) (m : Selection) :
    [receiverName proxy m] = (given? m.receiverName).toList ++ m.coinedReceiver proxy := by
  rw [receiverName_eq,Selection.coinedReceiver]
  cases given? m.receiverName <;> rfl

/-- A method has the names that it declares and those that are made up for it, and no others. -/
theorem names_perm (proxy : String) (m : Selection) :
    (receiverName proxy m :: paramNames 0 m.signature.params ++ resultNames m.signature.results.length).Perm
      (m.declaredNames ++ m.coinedNames proxy) := by
  have params := Naming.paramNames_perm 0 m.signature.params
  rw [← List.singleton_append,receiverName_cases,Selection.declaredNames,Selection.coinedNames]
  refine ((params.append_left _).append_right _).trans ?_
  -- The coined receiver changes places with the given parameters.
  simp only [List.append_assoc]
  exact (List.perm_append_comm_assoc ..).append_left _

/-- The variable that the elements of a variadic parameter are taken out into. -/
def Copies (params : List ParamDecl) (copies : List String) : Prop :=
  copies = [] ∨ ∃ last, params.getLast? = some last ∧ last.variadic = true ∧ copies = [last.name ++ "Inner"]

theorem Copies.nodup {params : List ParamDecl} {copies : List String} (copied : Copies params copies) :
    copies.Nodup := by
  rcases copied with rfl | ⟨_,_,_,rfl⟩
  · exact List.nodup_nil
  · exact List.nodup_singleton _

theorem defined_argument (name : String) (t : TypeExpr) :
    (p.argument name t).before.flatMap Stmt.defined = [] := by
  unfold argument
  split
  · rfl
  · dsimp only
    split <;> rfl

theorem defined_variadicArgument (name : String) (elem : TypeExpr) :
    (p.variadicArgument name elem).before.flatMap Stmt.defined = [] ∨
      (p.variadicArgument name elem).before.flatMap Stmt.defined = [name ++ "Inner"] := by
  unfold variadicArgument
  split
  · exact .inl rfl
  · exact .inr rfl

theorem arguments_bound {params : List Param} {index : Nat} {args : List Argument}
    (ok : p.arguments e m index params = .ok args) :
    args.map (·.param.name) = paramNames index params ∧
      Copies (args.map (·.param)) ((args.flatMap (·.before)).flatMap Stmt.defined) := by
  induction params generalizing index args with
  | nil =>
    cases ok
    exact ⟨rfl,.inl rfl⟩
  | cons param rest ih =>
    unfold arguments at ok
    cases last : m.signature.variadic && rest.isEmpty with
    | true =>
      obtain rfl : rest = [] := by simpa using (Bool.and_eq_true_iff.mp last).2
      simp only [last,if_true] at ok
      split at ok
      next elem type =>
        cases ok
        have param := variadicArgument_param (p := p) (Naming.paramName param.name index) elem
        refine ⟨by simp [paramNames,param],?_⟩
        rw [List.flatMap_singleton,List.map_singleton,param]
        exact (defined_variadicArgument _ _).imp_right fun copied => ⟨_,rfl,rfl,copied⟩
      next => cases ok
    | false =>
      simp only [last,Bool.false_eq_true,if_false] at ok
      split at ok
      next => cases ok
      next others more =>
        cases ok
        obtain ⟨names,copies⟩ := ih more
        refine ⟨by simp [paramNames,argument_param,names],?_⟩
        rw [List.flatMap_cons,List.flatMap_append,defined_argument,List.nil_append]
        rcases copies with none | ⟨param,isLast,facts⟩
        · exact .inl none
        · refine .inr ⟨param,?_,facts⟩
          rw [List.map_cons,List.getLast?_cons,isLast]
          rfl

theorem defined_callAndReturn (p : Plan) (call transform : Expr) (results : List Param) :
    (p.callAndReturn call transform results).flatMap Stmt.defined = resultNames results.length := by
  unfold callAndReturn resultNames
  cases results with
  | nil => rfl
  | cons r rest => simp [Stmt.defined]

theorem forward_bound (ok : p.forward e proxy m = .ok f) :
    f.names = receiverName proxy m :: paramNames 0 m.signature.params ∧
      ∃ copies, Copies f.params copies ∧
        f.bound = f.names ++ (copies ++ resultNames m.signature.results.length) := by
  obtain ⟨args,made,ok⟩ := bind_ok ok
  cases ok
  obtain ⟨names,copies⟩ := arguments_bound made
  constructor
  · simp only [FuncDecl.names,Option.toList_some,List.map_cons,List.map_nil,List.singleton_append,
      List.map_map,Function.comp_def,names]
  · refine ⟨_,copies,?_⟩
    rw [FuncDecl.bound,List.flatMap_append,defined_callAndReturn]

/-- The names of a forwarding method are at odds exactly where a declared name is one of those that are made up for
what is blank. The outermost block of the method has no others, but for the variable that a variadic parameter is
taken out into. -/
theorem bound_nodup_iff (ok : p.forward e proxy m = .ok f) (declared : m.declaredNames.Nodup) :
    ((f.names ++ resultNames m.signature.results.length).Nodup ↔
      ∀ name ∈ m.declaredNames, name ∉ m.coinedNames proxy) ∧
    ∃ copies, Copies f.params copies ∧
      f.bound = f.names ++ (copies ++ resultNames m.signature.results.length) ∧
      (f.bound.Nodup ↔ (∀ name ∈ m.declaredNames, name ∉ m.coinedNames proxy) ∧
        ∀ copy ∈ copies, copy ∉ f.names ++ resultNames m.signature.results.length) := by
  obtain ⟨names,copies,copied,bound⟩ := forward_bound ok
  have apart : (f.names ++ resultNames m.signature.results.length).Nodup ↔
      ∀ name ∈ m.declaredNames, name ∉ m.coinedNames proxy := by
    rw [names,(names_perm proxy m).nodup_iff,List.nodup_append]
    constructor
    · rintro ⟨_,_,apart⟩ name own coined
      exact apart name own name coined rfl
    · intro apart
      refine ⟨declared,m.coinedNames_nodup proxy,fun name own other coined same => ?_⟩
      exact apart name own (same ▸ coined)
  refine ⟨apart,copies,copied,bound,?_⟩
  rw [bound,(List.perm_append_comm_assoc ..).nodup_iff,List.nodup_append,apart]
  constructor
  · rintro ⟨_,others,free⟩
    exact ⟨others,fun copy made member => free copy made copy member rfl⟩
  · rintro ⟨others,free⟩
    exact ⟨copied.nodup,others,fun copy made name member same => free copy made (same ▸ member)⟩

end Plan

namespace Desk

def desk : NamedType := ⟨"p","Desk"⟩

def int : TypeExpr := .basic "int"

def sort : Selection := ⟨"Sort",none,⟨[⟨some "left",int⟩,⟨none,int⟩],[⟨none,.error⟩],false⟩,false⟩

/-- One parameter has the name of the blank receiver, one that of the blank parameter behind it, and one that of
the result. -/
def file : Selection := ⟨"File",none,
  ⟨[⟨some "iFacePDesk",int⟩,⟨some "p2",int⟩,⟨some "_",int⟩,⟨some "r0",int⟩],[⟨none,.error⟩],false⟩,false⟩

def types : Universe := ⟨[⟨"p","p",[⟨"Desk",.interface,.interface,[],
  [⟨"File",false,none,file.signature⟩,⟨"Sort",false,none,sort.signature⟩]⟩]⟩]⟩

def entry : Entry := ⟨⟨"p.Desk",.interface,0,.named desk⟩,"p.Desk",.soft,[file,sort]⟩

def group : Group := ⟨⟨"p.Desk",.interface,0,.named desk⟩,
  [("Sort",⟨"p.Desk",true⟩),("File",⟨"p.Desk",true⟩)],["p.Desk"]⟩

def catalog : Catalog := ⟨[entry],[group],[]⟩

def plan : Plan := ⟨catalog,types,⟨"out","","Transform"⟩⟩

open Evaluation in
theorem walk_types : Analysis.walk types (.named desk) [] = .ok ⟨catalog,[],["p.Desk"]⟩ := by
  have underlying : types.underlying desk = .ok .interface := by decide +kernel
  have methods : types.methodSet (.named desk) = .ok [file,sort] := by cbv
  have exported : isExported "File" = true ∧ isExported "Sort" = true := by decide +kernel
  have path : desk.path = "p" := rfl
  have key : desk.key = "p.Desk" := by decide +kernel
  simp [path,key,underlying,methods,exported,file,sort]
  rfl

theorem run_types : Analysis.run types (.named desk) [] = .ok ⟨catalog,1,0⟩ := by
  apply Analysis.run_of_walk walk_types
  cbv

theorem grown : Catalog.Grown types catalog := .of_run run_types

theorem proxyName_desk : plan.proxyName entry = "PDesk" := by decide +kernel

theorem plan_units : ∃ units, plan.units = .ok units := by
  have groups : plan.catalog.wrappedGroups = [group] := by decide +kernel
  have fileName : Naming.fileName types (.named desk) = "p_desk.go" := by decide +kernel
  have proxyName : Naming.proxyName types (.named desk) = "PDesk" := proxyName_desk
  apply Plan.units_total plan (by decide)
  · rw [groups]
    simp
  · rw [groups]
    simp [Plan.names,plan,group,Group.key,fileName,proxyName,Plan.collision?,List.lookup_cons]

/-- Both methods are forwarded. -/
theorem emitted {units : List OutputUnit} (generated : plan.units = .ok units) {m : Selection}
    (owned : m ∈ plan.ownedMethods entry) : ∃ unit ∈ units, ∃ f,
      Decl.func f ∈ unit.file.decls ∧ plan.forward entry "PDesk" m = .ok f := by
  have good : plan.catalog.WellFormed plan.types := grown.wellFormed
  have member : entry ∈ plan.catalog.entries := List.mem_cons_self
  obtain ⟨unit,among,_,variant,name⟩ := Plan.unit_of_wrapped good generated member (by decide)
  have fixed : m.signature.variadic = false := by
    have all : ∀ m ∈ plan.ownedMethods entry, m.signature.variadic = false := by decide
    exact all m owned
  obtain ⟨f,forwards⟩ := Plan.forward_total plan entry "PDesk" fixed
  refine ⟨unit,among,f,?_,forwards⟩
  have forwarded : plan.forward entry unit.proxyName m = .ok f := by
    rw [name,proxyName_desk]
    exact forwards
  exact (((Plan.unit_emits generated among good.distinct).1 f).mpr ⟨entry,member,m,variant,owned,forwarded⟩).1

end Desk

namespace Plan

theorem desk_sorts : ∃ f, Desk.plan.forward Desk.entry "PDesk" Desk.sort = .ok f ∧
    Desk.sort.declaredNames.Nodup ∧
    (f.names ++ resultNames Desk.sort.signature.results.length).Nodup := by
  obtain ⟨f,ok⟩ := forward_total Desk.plan Desk.entry "PDesk" (m := Desk.sort) rfl
  have declared : Desk.sort.declaredNames.Nodup := by decide
  exact ⟨f,ok,declared,(bound_nodup_iff ok declared).1.mpr (by decide)⟩

/-- A declaration may repeat what is made up for it, and then the function names two of its parameters alike, or
one like its receiver or like its result. -/
theorem desk_clashes : Analysis.run Desk.types (.named Desk.desk) [] = .ok ⟨Desk.catalog,1,0⟩ ∧
    ∃ units, Desk.plan.units = .ok units ∧ ∃ unit ∈ units, ∃ f, Decl.func f ∈ unit.file.decls ∧
      Desk.plan.forward Desk.entry "PDesk" Desk.file = .ok f ∧ Desk.file.declaredNames.Nodup ∧
      f.names ++ resultNames Desk.file.signature.results.length =
        ["iFacePDesk","iFacePDesk","p2","p2","r0","r0"] ∧
      ¬ (f.names ++ resultNames Desk.file.signature.results.length).Nodup := by
  obtain ⟨units,generated⟩ := Desk.plan_units
  obtain ⟨unit,among,f,emitted,forwards⟩ := Desk.emitted generated (m := Desk.file) (by decide)
  have names : f.names ++ resultNames Desk.file.signature.results.length =
      ["iFacePDesk","iFacePDesk","p2","p2","r0","r0"] := by
    rw [(forward_bound forwards).1]
    decide
  refine ⟨Desk.run_types,units,generated,unit,among,f,emitted,forwards,by decide,names,?_⟩
  rw [names]
  decide

end Plan
end ProxyGen
