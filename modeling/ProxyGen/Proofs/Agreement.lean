import ProxyGen.Generation
import ProxyGen.Proofs.Evaluation

/-! A run asks a universe few questions, and universes that answer them alike have the same runs. -/
namespace ProxyGen

structure Universe.Agrees (u u' : Universe) : Prop where
  resolvePackage (name : String) : u.resolvePackage name = u'.resolvePackage name
  lookupType (path name : String) : u.lookupType path name = u'.lookupType path name
  packageName (path : String) : u.packageName path = u'.packageName path
  underlying (n : NamedType) : u.underlying n = u'.underlying n
  methodSet (t : TypeExpr) : u.methodSet t = u'.methodSet t

theorem Universe.Agrees.shape {u u' : Universe} (agrees : u.Agrees u') (t : TypeExpr) : u.shape t = u'.shape t :=
  shapeFrom_congr agrees.underlying [] t

namespace Walk
variable {u u' : Universe} (agrees : u.Agrees u')
include agrees

theorem ofType_congr (t : TypeExpr) : Descriptor.ofType u t = Descriptor.ofType u' t := by
  rw [Descriptor.ofType,agrees.shape,Descriptor.ofType]

theorem register_congr (c : Catalog) (t : TypeExpr) (dependent : Option String) :
    c.register u t dependent = c.register u' t dependent := by
  have group : c.addGroup u t = c.addGroup u' t := by
    rw [Catalog.addGroup,ofType_congr agrees,Catalog.addGroup]
  have entry : c.addEntry u t = c.addEntry u' t := by
    rw [Catalog.addEntry,ofType_congr agrees,group,Catalog.addEntry]
  rw [Catalog.register,entry,Catalog.register]

theorem elements_congr (t : TypeExpr) : elements u t = elements u' t := by
  cases t with
  | named n =>
    rw [elements,elements,agrees.underlying]
    simp only [agrees.shape]
  | _ => rfl

theorem queueAll_congr (scope : List String) (dependent : Option String) (stack : List TypeExpr) (w : Walk) :
    w.queueAll u scope dependent stack = w.queueAll u' scope dependent stack := by
  fun_induction queueAll u scope dependent stack w with
  | case1 w => rw [queueAll]
  | case2 w t rest inside e refused =>
    rw [register_congr agrees] at refused
    simp only [queueAll_cons,inside,if_true,refused]
  | case3 w t rest inside c entered known ih =>
    rw [register_congr agrees] at entered
    simp only [queueAll_cons,inside,if_true,entered,known,ih]
  | case4 w t rest inside c entered new w' e refused =>
    rw [register_congr agrees] at entered
    rw [elements_congr agrees] at refused
    simp only [queueAll_cons,inside,if_true,entered,new,if_false,refused]
    rfl
  | case5 w t rest inside c entered new w' ts brought ih =>
    rw [register_congr agrees] at entered
    rw [elements_congr agrees] at brought
    simp only [queueAll_cons,inside,if_true,entered,new,if_false,brought]
    exact ih
  | case6 w t rest outside ih =>
    simp only [queueAll_cons,outside,ih]
    rfl

theorem seed_congr (scope : List String) (root : TypeExpr) (w : Walk) :
    w.seed u scope root = w.seed u' scope root := by
  have same : seedType u root = seedType u' root := by
    cases root with
    | named n => rw [seedType,agrees.shape,seedType]
    | _ => rfl
  unfold seed enqueue
  simp only [same,queueAll_congr agrees]

theorem takeResults_congr (scope : List String) (key : String) (status : Status) (results : List Param)
    (w : Walk) : w.takeResults u scope key status results = w.takeResults u' scope key status results := by
  have each (w : Walk) (r : Param) : w.takeResult u scope key status r = w.takeResult u' scope key status r := by
    simp only [takeResult,enqueue,queueAll_congr agrees]
  induction results generalizing w with
  | nil => rfl
  | cons r rest ih => simp only [takeResults,each,ih]

theorem classify_congr (scope : List String) (key : String) (w : Walk) :
    w.classify u scope key = w.classify u' scope key := by
  simp only [classify,agrees.methodSet,takeResults_congr agrees]

theorem drain_congr (scope : List String) (w : Walk) : w.drain u scope = w.drain u' scope := by
  fun_induction drain u scope w with
  | case1 w none =>
    obtain ⟨c,queue,visited⟩ := w
    obtain rfl : queue = [] := none
    rw [drain_nil]
  | case2 w key rest next h halted =>
    obtain ⟨c,queue,visited⟩ := w
    obtain rfl : queue = key :: rest := next
    rw [classify_congr agrees] at halted
    simp only [drain_cons,halted]
  | case3 w key rest next w' classified ih =>
    obtain ⟨c,queue,visited⟩ := w
    obtain rfl : queue = key :: rest := next
    rw [classify_congr agrees] at classified
    simp only [drain_cons,classified,ih]

end Walk

theorem Analysis.run_congr {u u' : Universe} (agrees : u.Agrees u') (root : TypeExpr) (packages : List String) :
    run u root packages = run u' root packages := by
  unfold run walk
  simp only [Walk.seed_congr agrees,Walk.drain_congr agrees]

namespace Plan
variable {u u' : Universe} (agrees : u.Agrees u') (c : Catalog) (target : Target)
include agrees

theorem ofType_congr (t : TypeExpr) : Code.TypeRef.ofType u t = Code.TypeRef.ofType u' t := by
  induction t with
  | named n => simp only [Code.TypeRef.ofType,agrees.packageName]
  | _ => simp only [Code.TypeRef.ofType, *]

theorem typeName_congr (t : TypeExpr) : Naming.proxyName u t = Naming.proxyName u' t := by
  unfold Naming.proxyName
  simp only [agrees.packageName]

theorem constructorName_congr (d : Descriptor) : Naming.constructorName u d = Naming.constructorName u' d := by
  unfold Naming.constructorName
  rw [typeName_congr agrees]

theorem proxyName_congr (e : Entry) : proxyName ⟨c,u,target⟩ e = proxyName ⟨c,u',target⟩ e :=
  typeName_congr agrees _

theorem wrappedType_congr (t : TypeExpr) : wrappedType ⟨c,u,target⟩ t = wrappedType ⟨c,u',target⟩ t := by
  simp only [wrappedType,entryAtLeast?,proxyName_congr agrees,ofType_congr agrees]

theorem argument_congr (name : String) (t : TypeExpr) :
    argument ⟨c,u,target⟩ name t = argument ⟨c,u',target⟩ name t := by
  simp only [argument,takeOut,entryAtLeast?,wrappedType_congr agrees,proxyName_congr agrees]

theorem variadicArgument_congr (name : String) (t : TypeExpr) :
    variadicArgument ⟨c,u,target⟩ name t = variadicArgument ⟨c,u',target⟩ name t := by
  simp only [variadicArgument,takeOut,entryAtLeast?,wrappedType_congr agrees,proxyName_congr agrees,
    ofType_congr agrees]

theorem arguments_congr (e : Entry) (m : Selection) (params : List Param) (index : Nat) :
    arguments ⟨c,u,target⟩ e m index params = arguments ⟨c,u',target⟩ e m index params := by
  induction params generalizing index with
  | nil => rfl
  | cons param rest ih =>
    simp only [arguments,argument_congr agrees,variadicArgument_congr agrees,ih]

theorem forward_congr (e : Entry) (proxy : String) (m : Selection) :
    forward ⟨c,u,target⟩ e proxy m = forward ⟨c,u',target⟩ e proxy m := by
  simp only [forward,arguments_congr agrees,wrappedType_congr agrees,callAndReturn,returned,entryAtLeast?,
    constructorName_congr agrees]

theorem constructor_congr (e : Entry) (proxy : String) :
    constructor ⟨c,u,target⟩ e proxy = constructor ⟨c,u',target⟩ e proxy := by
  simp only [constructor,constructorName_congr agrees,ofType_congr agrees,wrappedType_congr agrees,
    transformer]

theorem unit_congr (g : Group) : unit ⟨c,u,target⟩ g = unit ⟨c,u',target⟩ g := by
  have file (t : TypeExpr) : Naming.fileName u t = Naming.fileName u' t := by
    unfold Naming.fileName
    simp only [agrees.packageName]
  have variant (proxy : String) : variantDecls ⟨c,u,target⟩ proxy = variantDecls ⟨c,u',target⟩ proxy := by
    funext e
    simp only [variantDecls,ownedMethods,forward_congr agrees,constructor_congr agrees]
  have decl (proxy : String) (t : TypeExpr) : proxyDecl ⟨c,u,target⟩ proxy t =
      proxyDecl ⟨c,u',target⟩ proxy t := by
    simp only [proxyDecl,ofType_congr agrees,transformer]
  simp only [unit,typeName_congr agrees,file,variant,decl]

theorem units_congr : units ⟨c,u,target⟩ = units ⟨c,u',target⟩ := by
  have each : (unit ⟨c,u,target⟩) = unit ⟨c,u',target⟩ := funext (unit_congr agrees c target)
  simp only [units,each]

end Plan

/-- Universes that agree have the same runs. -/
theorem Generation.run_congr {u u' : Universe} (agrees : u.Agrees u') (s : Settings)
    (here : Option String) : run s u here = run s u' here := by
  have additional (packages names : List String) : addPackages u packages names =
      addPackages u' packages names := by
    induction names generalizing packages with
    | nil => rfl
    | cons name rest ih => simp only [addPackages,agrees.resolvePackage,ih]
  simp only [run,agrees.resolvePackage,agrees.lookupType,additional,Analysis.run_congr agrees,
    Plan.units_congr agrees]

end ProxyGen
