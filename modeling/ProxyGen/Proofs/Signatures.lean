import ProxyGen.Proofs.Forwarding
import ProxyGen.Proofs.Softness

/-! The signatures of soft proxies. What a method of a soft interface returns is never hard, so its results
keep their types. Nothing of the kind holds of what it takes: a hard parameter is declared as its proxy. -/
namespace ProxyGen

/-- The types of the parameters as they are declared, and which of them is variadic: of that one the elements
are declared. -/
def Signature.declared (variadic : Bool) : List Param → List (TypeExpr × Bool)
  | [] => []
  | param :: rest =>
    (match variadic && rest.isEmpty, param.type with
      | true, .slice elem => (elem,true)
      | _, t => (t,false)) :: declared variadic rest

namespace Walk

theorem key_ne_error {scope : List String} {t : TypeExpr} (inside : inScope scope t = true) :
    t.key ≠ TypeExpr.error.key := by
  intro same
  have letters := congrArg String.toList same
  cases t with
  | named n =>
    have dot : '.' ∈ (TypeExpr.named n).key.toList := by simp [TypeExpr.key,NamedType.key]
    rw [letters] at dot
    revert dot
    decide
  | chan d t => cases d <;> simp [TypeExpr.key,ChanDir.text] at letters
  | pointer | slice | array | map => simp [TypeExpr.key] at letters
  | _ => cases inside

end Walk

/-- The key of the type means no other type of the catalog. -/
def Catalog.Distinguishes (c : Catalog) (scope : List String) (t : TypeExpr) : Prop :=
  Walk.inScope scope t = true ∨ t.isError = true ∨ ∀ h ∈ c.entries, h.key = t.key → h.descriptor.type = t

namespace Plan
open Code
variable {p : Plan}

/-- How a type is written in signatures: a hard one as its proxy, all others as they are. -/
structure Stands (p : Plan) (t : TypeExpr) (ref : TypeRef) : Prop where
  own : (∀ h ∈ p.catalog.entries, h.key = t.key → h.status ≠ .hard) → ref = .ofType p.types t
  proxy : ∀ h ∈ p.catalog.entries, h.key = t.key → h.status = .hard →
    ref = .pointers (layers h.descriptor) (.name (p.proxyName h))

/-- The function is the method of a file that forwards the method of an entry. -/
structure Emits (p : Plan) (unit : OutputUnit) (e : Entry) (m : Selection) (f : FuncDecl) : Prop where
  variant : e.key ∈ unit.variants
  owned : m ∈ p.ownedMethods e
  forwards : p.forward e unit.proxyName m = .ok f

/-- The method declares the results of the interface's method, as far as their keys mean them, and its
parameters but for those that are hard. -/
structure Declares (p : Plan) (scope : List String) (e : Entry) (m : Selection) (f : FuncDecl) :
    Prop where
  offered : e.Offers p.types m
  name : f.name = m.name
  params : List.Forall₂ (fun s (d : ParamDecl) => p.Stands s.1 d.type ∧ d.variadic = s.2)
    (Signature.declared m.signature.variadic m.signature.params) f.params
  results : List.Forall₂ (fun (r : Param) ref => p.Stands r.type ref ∧
    (p.catalog.Distinguishes scope r.type → ref = .ofType p.types r.type))
      m.signature.results f.results

theorem wrappedType_of_soft {t : TypeExpr}
    (soft : ∀ h ∈ p.catalog.entries, h.key = t.key → h.status ≠ .hard) :
    p.wrappedType t = .ofType p.types t := by
  unfold wrappedType entryAtLeast?
  cases found : p.catalog.entry? t.key with
  | none => rfl
  | some h =>
    obtain ⟨member,same⟩ := Catalog.entry?_some found
    have low : ¬ .hard ≤ h.status := fun reached => soft h member same (Status.eq_hard reached)
    simp [Option.filter_some,low]

theorem entryAtLeast?_of_mem (distinct : p.catalog.keys.Nodup) {t : TypeExpr} {e : Entry} {s : Status}
    (member : e ∈ p.catalog.entries) (same : e.key = t.key) (reached : s ≤ e.status) :
    p.entryAtLeast? s t = some e := by
  have found := Catalog.entry?_of_mem distinct member
  rw [same] at found
  simp [entryAtLeast?,found,Option.filter_some,reached]

theorem wrappedType_of_hard (distinct : p.catalog.keys.Nodup) {t : TypeExpr} {h : Entry}
    (member : h ∈ p.catalog.entries) (same : h.key = t.key) (isHard : h.status = .hard) :
    p.wrappedType t = .pointers (layers h.descriptor) (.name (p.proxyName h)) := by
  have found := entryAtLeast?_of_mem (s := .hard) distinct member same (by simp [isHard])
  simp [wrappedType,found]

theorem stands_wrappedType (distinct : p.catalog.keys.Nodup) (t : TypeExpr) :
    p.Stands t (p.wrappedType t) where
  own := wrappedType_of_soft
  proxy _ member same isHard := wrappedType_of_hard distinct member same isHard

theorem argument_param (name : String) (t : TypeExpr) :
    (p.argument name t).param = ⟨name,p.wrappedType t,false⟩ := by
  unfold argument
  split
  · rfl
  · dsimp only
    split <;> rfl

theorem variadicArgument_param (name : String) (elem : TypeExpr) :
    (p.variadicArgument name elem).param = ⟨name,p.wrappedType elem,true⟩ := by
  unfold variadicArgument
  split <;> rfl

theorem arguments_declared {e : Entry} {m : Selection} {params : List Param} {index : Nat}
    {args : List Argument} (ok : p.arguments e m index params = .ok args) :
    List.Forall₂ (fun s (a : Argument) => a.param.type = p.wrappedType s.1 ∧ a.param.variadic = s.2)
      (Signature.declared m.signature.variadic params) args := by
  induction params generalizing index args with
  | nil =>
    cases ok
    exact .nil
  | cons param rest ih =>
    unfold arguments at ok
    unfold Signature.declared
    cases last : m.signature.variadic && rest.isEmpty with
    | true =>
      obtain rfl : rest = [] := by simpa using (Bool.and_eq_true_iff.mp last).2
      simp only [last,if_true] at ok
      split at ok
      next elem type =>
        cases ok
        rw [type]
        refine .cons ?_ .nil
        rw [variadicArgument_param]
        exact ⟨rfl,rfl⟩
      next => cases ok
    | false =>
      simp only [last,Bool.false_eq_true,if_false] at ok
      split at ok
      next => cases ok
      next others more =>
        cases ok
        refine .cons ?_ (ih more)
        rw [argument_param]
        exact ⟨rfl,rfl⟩

theorem forward_signature {e : Entry} {proxy : String} {m : Selection} {f : FuncDecl}
    (ok : p.forward e proxy m = .ok f) :
    List.Forall₂ (fun s (d : ParamDecl) => d.type = p.wrappedType s.1 ∧ d.variadic = s.2)
      (Signature.declared m.signature.variadic m.signature.params) f.params ∧
        f.results = m.signature.results.map fun r => p.wrappedType r.type := by
  obtain ⟨args,made,ok⟩ := bind_ok ok
  cases ok
  exact ⟨List.forall₂_map_right_iff.mpr (arguments_declared made),rfl⟩

/-- The methods of a file, and the constructors of its variants. -/
theorem unit_emits {units : List OutputUnit} (ok : p.units = .ok units) {unit : OutputUnit}
    (among : unit ∈ units) (distinct : p.catalog.keys.Nodup) :
    (∀ f, Decl.func f ∈ unit.file.decls ∧ f.receiver ≠ none ↔
      ∃ e ∈ p.catalog.entries, ∃ m, p.Emits unit e m f) ∧
    ∀ e ∈ p.catalog.entries, e.key ∈ unit.variants →
      Decl.func (p.constructor e unit.proxyName) ∈ unit.file.decls := by
  obtain ⟨g,_,made⟩ := ((mem_units ok).2 unit).mp among
  obtain ⟨_,variants,_,functions⟩ := unit_functions made
  have wrapped {e : Entry} (member : e ∈ p.catalog.entries) (variant : e.key ∈ unit.variants) :
      e ∈ p.catalog.wrappedMembers g := by
    rw [variants] at variant
    obtain ⟨e',present,same⟩ := List.mem_map.mp variant
    obtain ⟨⟨_,_,found⟩,_⟩ := mem_wrappedMembers.mp present
    obtain rfl := Catalog.entry_unique distinct (Catalog.entry?_some found).1 member same
    exact present
  constructor
  · intro f
    constructor
    · rintro ⟨member,method⟩
      obtain ⟨e,present,rfl | ⟨m,owned,forwards⟩⟩ := (functions f).mp member
      · exact absurd rfl method
      · obtain ⟨⟨_,_,found⟩,_⟩ := mem_wrappedMembers.mp present
        refine ⟨e,(Catalog.entry?_some found).1,m,?_,owned,forwards⟩
        rw [variants]
        exact List.mem_map_of_mem present
    · rintro ⟨e,member,m,emits⟩
      refine ⟨?_,(forward_head emits.forwards).1⟩
      exact (functions f).mpr ⟨e,wrapped member emits.variant,.inr ⟨m,emits.owned,emits.forwards⟩⟩
  · intro e member variant
    exact (functions _).mpr ⟨e,wrapped member variant,.inl rfl⟩

end Plan

namespace Hub

def plan : Plan := ⟨catalog .hard .soft,types,⟨"out","","Transform"⟩⟩

theorem wrappedGroups_plan :
    plan.catalog.wrappedGroups = [gateGroup,hubGroup,itemGroup,portGroup] := by
  apply Text.sortBy_eq
  · decide
  · decide

theorem fileNames : Naming.fileName types (.named gate) = "p_gate.go" ∧
    Naming.fileName types (.named hub) = "p_hub.go" ∧
    Naming.fileName types (.named item) = "p_item.go" ∧
    Naming.fileName types (.named port) = "p_port.go" := by
  decide +kernel

theorem proxyNames : Naming.proxyName types (.named gate) = "PGate" ∧
    Naming.proxyName types (.named hub) = "PHub" ∧ Naming.proxyName types (.named item) = "PItem" ∧
    Naming.proxyName types (.named port) = "PPort" := by
  decide +kernel

theorem plan_units : ∃ units, plan.units = .ok units := by
  apply Plan.units_total plan (by decide)
  · rw [wrappedGroups_plan]
    simp only [plan,gateGroup,hubGroup,itemGroup,portGroup,List.map,fileNames]
    decide
  · rw [wrappedGroups_plan]
    simp [Plan.names,plan,gateGroup,hubGroup,itemGroup,portGroup,Group.key,fileNames,proxyNames,
      Plan.collision?,List.lookup_cons]

/-- The item is hard, so it gives way to its proxy. -/
theorem wrappedType_item : plan.wrappedType (.named item) = .name "PItem" := by
  have distinct : plan.catalog.keys.Nodup := by decide
  have member : itemEntry ∈ plan.catalog.entries := by simp [plan,catalog]
  have same : itemEntry.key = (TypeExpr.named item).key := keys.2.1.symm
  have name : plan.proxyName itemEntry = "PItem" := proxyNames.2.2.1
  rw [Plan.wrappedType_of_hard distinct member same rfl,name]
  rfl

theorem ofType_item : Code.TypeRef.ofType types (.named item) = .qualified "p" "p" "Item" := by decide +kernel

/-- The port is soft and has a file, in which its `Send` is forwarded. -/
theorem port_emitted {units : List OutputUnit} (generated : plan.units = .ok units) :
    ∃ unit ∈ units, portEntry.key ∈ unit.variants ∧
      ∃ f, plan.Emits unit portEntry ⟨"Send",none,send,false⟩ f := by
  obtain ⟨total,image⟩ := Plan.mem_units generated
  have needed : portGroup ∈ plan.catalog.wrappedGroups := by simp [wrappedGroups_plan]
  obtain ⟨unit,made⟩ := total portGroup needed
  obtain ⟨_,variants,forwarded,_⟩ := Plan.unit_functions made
  have wrapped : portEntry ∈ plan.catalog.wrappedMembers portGroup :=
    Plan.mem_wrappedMembers.mpr ⟨⟨"p.Port",by decide,by decide⟩,by decide⟩
  have variant : portEntry.key ∈ unit.variants := by
    rw [variants]
    exact List.mem_map_of_mem wrapped
  have owned : ⟨"Send",none,send,false⟩ ∈ plan.ownedMethods portEntry := by decide
  obtain ⟨f,forwards⟩ := forwarded portEntry wrapped _ owned
  exact ⟨unit,(image unit).mpr ⟨portGroup,needed,made⟩,variant,f,variant,owned,forwards⟩

end Hub

namespace Analysis
variable {u : Universe}

namespace Finished
variable {scope : List String} {a : Analysis} {w : Walk} {e : Entry}

theorem key_type (finished : Finished u scope a w) (member : e ∈ a.catalog.entries) :
    e.key = e.descriptor.type.key := by
  obtain ⟨e₀,present,same,_⟩ := finished.origin member
  have described := (finished.orderly.sound.good.described e₀ present).1
  rw [same] at described
  exact (Catalog.ofType_key described).1

/-- No type that a soft interface returns is hard. -/
theorem result_not_hard (finished : Finished u scope a w) (member : e ∈ a.catalog.entries)
    (isSoft : e.status = .soft) {m : Selection} (listed : m ∈ e.methods) {r : Param}
    (result : r ∈ m.signature.results) (clear : a.catalog.Distinguishes scope r.type) :
    ∀ h ∈ a.catalog.entries, h.key = r.type.key → h.status ≠ .hard := by
  intro h present same isHard
  have inside := finished.withinScope h present
  have key : h.key = h.descriptor.type.key := finished.key_type present
  cases error : r.type.isError with
  | true =>
    have type : r.type = .error := by
      cases kind : r.type <;> simp_all [TypeExpr.isError]
    rw [key,type] at same
    exact Walk.key_ne_error inside same
  | false =>
    have within : Walk.inScope scope r.type = true := by
      rcases clear with within | isError | agree
      · exact within
      · rw [error] at isError
        cases isError
      · rw [← agree h present same]
        exact inside
    obtain ⟨source,known,named,_,reached⟩ :=
      finished.resultsMet.values e member m listed r result error within
    obtain rfl := Catalog.entry_unique finished.distinct known present (named.trans same.symm)
    rw [isSoft,isHard] at reached
    exact absurd (Status.eq_hard reached) (by decide)

theorem constructor_results (finished : Finished u scope a w) (target : Target)
    (member : e ∈ a.catalog.entries) (isSoft : e.status = .soft) (proxy : String) :
    (Plan.constructor ⟨a.catalog,u,target⟩ e proxy).results = [.ofType u e.descriptor.type] := by
  have own : ∀ h ∈ a.catalog.entries, h.key = e.descriptor.type.key → h.status ≠ .hard := by
    intro h present same isHard
    rw [← finished.key_type member] at same
    obtain rfl := Catalog.entry_unique finished.distinct present member same
    rw [isSoft] at isHard
    cases isHard
  exact congrArg (fun ref => [ref]) (Plan.wrappedType_of_soft own)

theorem declares (finished : Finished u scope a w) (target : Target) (member : e ∈ a.catalog.entries)
    (isSoft : e.status = .soft) {unit : OutputUnit} {m : Selection} {f : Code.FuncDecl}
    (emits : Plan.Emits ⟨a.catalog,u,target⟩ unit e m f) :
    Plan.Declares ⟨a.catalog,u,target⟩ scope e m f := by
  have stands (t : TypeExpr) : Plan.Stands ⟨a.catalog,u,target⟩ t
      (Plan.wrappedType ⟨a.catalog,u,target⟩ t) := Plan.stands_wrappedType finished.distinct t
  obtain ⟨params,results⟩ := Plan.forward_signature emits.forwards
  have listed : m ∈ e.methods := (List.mem_filter.mp emits.owned).1
  obtain ⟨before,after,split⟩ := List.append_of_mem member
  constructor
  · exact ((finished.listed_iff split m).mp listed).1
  · exact (Plan.forward_head emits.forwards).2
  · refine params.imp ?_
    rintro s d ⟨type,variadic⟩
    rw [type]
    exact ⟨stands s.1,variadic⟩
  · rw [results,List.forall₂_map_right_iff,List.forall₂_same]
    intro r result
    refine ⟨stands r.type,fun clear => ?_⟩
    exact Plan.wrappedType_of_soft (finished.result_not_hard member isSoft listed result clear)

end Finished

/-- A file holds a method for each method that a variant of its still owns, and a method of a soft interface
is declared as in the interface but for its hard parameters. Its constructor returns the interface. -/
theorem soft_signatures {root : TypeExpr} {packages : List String} {a : Analysis} {target : Target}
    {units : List OutputUnit} (ok : run u root packages = .ok a)
    (generated : Plan.units ⟨a.catalog,u,target⟩ = .ok units) {unit : OutputUnit}
    (among : unit ∈ units) :
    (∀ f, Code.Decl.func f ∈ unit.file.decls ∧ f.receiver ≠ none ↔
      ∃ e ∈ a.catalog.entries, ∃ m, Plan.Emits ⟨a.catalog,u,target⟩ unit e m f) ∧
    ∀ e ∈ a.catalog.entries, e.status = .soft →
      (e.key ∈ unit.variants → ∃ f, Code.Decl.func f ∈ unit.file.decls ∧
        f = Plan.constructor ⟨a.catalog,u,target⟩ e unit.proxyName ∧
        f.results = [.ofType u e.descriptor.type]) ∧
      ∀ m f, Plan.Emits ⟨a.catalog,u,target⟩ unit e m f →
        Plan.Declares ⟨a.catalog,u,target⟩ (scopeOf root packages) e m f := by
  obtain ⟨w,finished⟩ := finished_of_run ok
  obtain ⟨methods,constructors⟩ := Plan.unit_emits generated among finished.distinct
  refine ⟨methods,fun e member isSoft => ⟨?_,?_⟩⟩
  · intro variant
    exact ⟨_,constructors e member variant,rfl,finished.constructor_results target member isSoft _⟩
  · intro m f emits
    exact finished.declares target member isSoft emits

theorem hub_signatures : ∃ units,
    run Hub.types (.named Hub.hub) [] = .ok ⟨Hub.catalog .hard .soft,6,2⟩ ∧
      Hub.plan.units = .ok units ∧ ∃ unit ∈ units, ∃ f,
        Code.Decl.func f ∈ unit.file.decls ∧
          Hub.plan.Declares ["p"] Hub.portEntry ⟨"Send",none,Hub.send,false⟩ f := by
  obtain ⟨units,generated⟩ := Hub.plan_units
  obtain ⟨unit,among,variant,f,emits⟩ := Hub.port_emitted generated
  have member : Hub.portEntry ∈ (Hub.catalog .hard .soft).entries := by simp [Hub.catalog]
  obtain ⟨methods,soft⟩ := soft_signatures Hub.run_types generated among
  refine ⟨units,Hub.run_types,generated,unit,among,f,?_,(soft Hub.portEntry member rfl).2 _ f emits⟩
  exact ((methods f).mpr ⟨Hub.portEntry,member,_,emits⟩).1

/-- The port is soft and its `Send` takes an item, which the proxy of the port takes in the item's proxy. -/
theorem hub_replaced : ∃ units,
    run Hub.types (.named Hub.hub) [] = .ok ⟨Hub.catalog .hard .soft,6,2⟩ ∧
      Hub.plan.units = .ok units ∧ Hub.portEntry ∈ (Hub.catalog .hard .soft).entries ∧
      Hub.portEntry.status = .soft ∧
      ∃ unit ∈ units, ∃ f, Hub.plan.Emits unit Hub.portEntry ⟨"Send",none,Hub.send,false⟩ f ∧
        f.params.map Code.ParamDecl.type = [.name "PItem"] ∧
        Hub.send.params.map (fun param => Code.TypeRef.ofType Hub.types param.type) =
          [.qualified "p" "p" "Item"] := by
  obtain ⟨units,generated⟩ := Hub.plan_units
  obtain ⟨unit,among,_,f,emits⟩ := Hub.port_emitted generated
  refine ⟨units,Hub.run_types,generated,by simp [Hub.catalog],rfl,unit,among,f,emits,?_,?_⟩
  · have params := (Plan.forward_signature emits.forwards).1
    have declared : Signature.declared Hub.send.variadic Hub.send.params =
        [(.named Hub.item,false)] := rfl
    rw [declared,List.forall₂_cons_left_iff] at params
    obtain ⟨d,rest,⟨type,_⟩,none,equal⟩ := params
    rw [List.forall₂_nil_left_iff.mp none] at equal
    rw [equal,List.map_singleton,type,Hub.wrappedType_item]
  · exact congrArg (fun ref => [ref]) Hub.ofType_item

end Analysis
end ProxyGen
