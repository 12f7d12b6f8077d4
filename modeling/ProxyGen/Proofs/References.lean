import ProxyGen.Proofs.Signatures
import ProxyGen.Proofs.TypeTexts
import ProxyGen.Proofs.Units

/-! What generated code refers to. Whoever writes the proxy of an entry or calls its constructor has found
that the entry needs a proxy, and such an entry has both in the unit of its group; so nothing is
referred to that no unit declares. -/
namespace ProxyGen

namespace Code

/-- What the body of a function takes from elsewhere: functions that it calls by name, types that it asserts
and types of the literals in it. -/
inductive Reference
  | call (name : String)
  | assertion (type : TypeRef)
  | literal (type : TypeRef)
  deriving DecidableEq

namespace Expr

def callee : Expr → List Reference
  | ident name => [.call name]
  | _ => []

mutual

def references : Expr → List Reference
  | ident _ | nil => []
  | selector e _ | addrOf e | deref e | make _ e => e.references
  | call f args _ => f.callee ++ f.references ++ referencesOfAll args
  | composite t fields => .literal t :: referencesOfFields fields
  | binary _ a b | index a b => a.references ++ b.references
  | typeAssert e t => .assertion t :: e.references

def referencesOfAll : List Expr → List Reference
  | [] => []
  | e :: rest => e.references ++ referencesOfAll rest

def referencesOfFields : List (String × Expr) → List Reference
  | [] => []
  | field :: rest => field.2.references ++ referencesOfFields rest

end

attribute [simp] references referencesOfAll referencesOfFields

@[simp] theorem callee_ident (name : String) : (ident name).callee = [.call name] := rfl

@[simp] theorem callee_selector (e : Expr) (field : String) : (selector e field).callee = [] := rfl

theorem mem_referencesOfAll {r : Reference} {es : List Expr} :
    r ∈ referencesOfAll es ↔ ∃ e ∈ es, r ∈ e.references := by
  induction es with
  | nil => simp
  | cons e rest ih => simp [ih]

end Expr

namespace Stmt

mutual

def references : Stmt → List Reference
  | define _ e | expr e => e.references
  | assign a b => a.references ++ b.references
  | ifThen init cond body => referencesOfInit init ++ cond.references ++ referencesOfAll body
  | range _ _ collection body => collection.references ++ referencesOfAll body
  | ret values => Expr.referencesOfAll values
  | blank => []

def referencesOfInit : Option Stmt → List Reference
  | none => []
  | some s => s.references

def referencesOfAll : List Stmt → List Reference
  | [] => []
  | s :: rest => s.references ++ referencesOfAll rest

end

attribute [simp] references referencesOfInit referencesOfAll

theorem mem_referencesOfAll {r : Reference} {body : List Stmt} :
    r ∈ referencesOfAll body ↔ ∃ s ∈ body, r ∈ s.references := by
  induction body with
  | nil => simp
  | cons s rest ih => simp [ih]

end Stmt

theorem TypeRef.text_pointers (n : Nat) (name : String) (q q' : Qualifier) :
    (pointers n (.name name)).text q = (pointers n (.name name)).text q' := by
  rw [text_pointers_eq,text_pointers_eq]
  rfl

end Code

open Code

def DeclaresProxy (units : List OutputUnit) (name : String) : Prop :=
  ∃ unit ∈ units, ∃ fields, Decl.struct name fields ∈ unit.file.decls

def DeclaresFunction (units : List OutputUnit) (name : String) : Prop :=
  ∃ unit ∈ units, ∃ f, Decl.func f ∈ unit.file.decls ∧ f.receiver = none ∧ f.name = name

/-- Of all functions called by name only `len` is none that a unit declares. -/
def Code.Reference.Declared (units : List OutputUnit) : Reference → Prop
  | .call name => name = "len" ∨ DeclaresFunction units name
  | .assertion t => ∃ name, t = .pointer (.name name) ∧ DeclaresProxy units name
  | .literal t => ∃ name, t = .name name ∧ DeclaresProxy units name

namespace Plan
variable {p : Plan} {units : List OutputUnit}

/-- How a type is written in signatures, where a proxy must be declared. -/
structure Written (p : Plan) (units : List OutputUnit) (t : TypeExpr) (ref : TypeRef) : Prop where
  stands : p.Stands t ref
  declared : ∀ h ∈ p.catalog.entries, h.key = t.key → h.status = .hard →
    DeclaresProxy units (p.proxyName h)

/-- A result that is hard is returned from the constructor of its entry, which declares the type that is
declared here; an error goes through the transformer instead. -/
def Constructed (p : Plan) (units : List OutputUnit) (t : TypeExpr) (declared : TypeRef) (value : Expr) :
    Prop :=
  t.isError = false → ∀ h ∈ p.catalog.entries, h.key = t.key → h.status = .hard →
    ∃ unit ∈ units, h.key ∈ unit.variants ∧ ∃ c, c = p.constructor h unit.proxyName ∧
      Decl.func c ∈ unit.file.decls ∧ (∃ args, value = .call (.ident c.name) args false) ∧
        ∃ ref, c.results = [ref] ∧ ∀ q q', ref.text q = declared.text q'

/-- A constructor takes a type as it is, and returns it as it is written in signatures. -/
structure Constructs (p : Plan) (units : List OutputUnit) (e : Entry) (f : FuncDecl) : Prop where
  params : f.params.map ParamDecl.type = [.ofType p.types e.descriptor.type,p.transformer]
  result : ∃ ref, f.results = [ref] ∧ p.Written units e.descriptor.type ref

/-- A method declares its parameters and results as they are written in signatures, and returns the hard
ones in their proxies. -/
structure Delegates (p : Plan) (units : List OutputUnit) (m : Selection) (f : FuncDecl) : Prop where
  params : List.Forall₂ (fun s (d : ParamDecl) => p.Written units s.1 d.type)
    (Signature.declared m.signature.variadic m.signature.params) f.params
  results : List.Forall₂ (fun (r : Param) ref => p.Written units r.type ref)
    m.signature.results f.results
  returned : m.signature.results ≠ [] → ∃ values, f.body.getLast? = some (.ret values) ∧
    List.Forall₂ (fun (r : Param × TypeRef) value => p.Constructed units r.1.type r.2 value)
      (m.signature.results.zip f.results) values

/-- Nothing is referred to in the units that none of them declares. -/
structure Closed (p : Plan) (units : List OutputUnit) : Prop where
  proxies : ∀ unit ∈ units, ∃ fields, Decl.struct unit.proxyName fields ∈ unit.file.decls
  bodies : ∀ unit ∈ units, ∀ f, Decl.func f ∈ unit.file.decls →
    ∀ r ∈ Stmt.referencesOfAll f.body, r.Declared units
  constructors : ∀ unit ∈ units, ∀ f, Decl.func f ∈ unit.file.decls → f.receiver = none →
    ∃ e ∈ p.catalog.entries, e.key ∈ unit.variants ∧ p.Constructs units e f
  methods : ∀ unit ∈ units, ∀ f, Decl.func f ∈ unit.file.decls → ∀ r, f.receiver = some r →
    (r.type = .name unit.proxyName ∨ r.type = .pointer (.name unit.proxyName)) ∧
      ∃ e ∈ p.catalog.entries, ∃ m, p.Emits unit e m f ∧ p.Delegates units m f

theorem references_derefs (n : Nat) (e : Expr) : (derefs n e).references = e.references := by
  induction n generalizing e with
  | zero => rfl
  | succ n ih => rw [derefs,ih,Expr.references]

theorem references_nilTests (n : Nat) {cond e : Expr} (test : cond.references = [])
    (value : e.references = []) : (nilTests n cond e).references = [] := by
  induction n generalizing cond e with
  | zero => exact test
  | succ n ih =>
    apply ih
    · simp [Expr.or,Expr.isNil,test,value]
    · simp [value]

theorem references_nilGuard (n : Nat) : Stmt.referencesOfAll (nilGuard n) = [] := by
  cases n with
  | zero => rfl
  | succ n =>
    have tests : (nilTests n (Expr.ident innerName).isNil (.ident innerName)).references = [] := by
      apply references_nilTests
      · simp [Expr.isNil]
      · simp
    simp [nilGuard,tests]

theorem references_referTo (n level : Nat) : Stmt.referencesOfAll (referTo n level) = [] := by
  induction n generalizing level with
  | zero => simp [referTo]
  | succ n ih => simp [referTo,ih]

theorem references_returnProxy (literal : Expr) (n : Nat) :
    Stmt.referencesOfAll (returnProxy literal n) = literal.references := by
  match n with
  | 0 => simp [returnProxy]
  | 1 => simp [returnProxy]
  | n + 2 => simp [returnProxy,references_referTo]

/-- All that a constructor refers to is its proxy. -/
theorem references_constructorBody {d : Descriptor} {proxy : String} {r : Reference}
    (inside : r ∈ Stmt.referencesOfAll (constructorBody d proxy)) : r = .literal (.name proxy) := by
  rw [Stmt.mem_referencesOfAll] at inside
  obtain ⟨s,member,inside⟩ := inside
  rcases List.mem_append.mp member with guard | rest
  · have none := Stmt.mem_referencesOfAll.mpr ⟨s,guard,inside⟩
    rw [references_nilGuard] at none
    cases none
  · have found := Stmt.mem_referencesOfAll.mpr ⟨s,rest,inside⟩
    rw [references_returnProxy] at found
    simpa [references_derefs] using found

theorem references_takeOut {e : Entry} {holder : String} {value target : Expr}
    (taken : value.references = []) (assigned : target.references = []) :
    (p.takeOut e holder value target).references = [.assertion (.pointer (.name (p.proxyName e)))] := by
  simp [takeOut,taken,assigned]

theorem references_hardInner {e : Entry} {value : Expr} (taken : value.references = []) :
    (hardInner e value).references = [] := by
  unfold hardInner
  dsimp only
  split <;> simp [taken]

/-- Whatever needs a proxy has it declared, and its constructor too. -/
def Provides (p : Plan) (units : List OutputUnit) : Prop :=
  ∀ e ∈ p.catalog.entries, e.status ≠ .none → DeclaresProxy units (p.proxyName e) ∧
    ∃ unit ∈ units, e.key ∈ unit.variants ∧
      Decl.func (p.constructor e unit.proxyName) ∈ unit.file.decls

theorem unit_struct {g : Group} {unit : OutputUnit} (ok : p.unit g = .ok unit) :
    p.proxyDecl unit.proxyName g.descriptor.type ∈ unit.file.decls := by
  obtain ⟨decls,_,ok⟩ := bind_ok ok
  cases ok
  exact List.mem_cons_self

theorem provides_of_units (good : p.catalog.WellFormed p.types) (ok : p.units = .ok units) :
    p.Provides units := by
  intro e member wrapped
  obtain ⟨unit,among,_,variant,name⟩ := unit_of_wrapped good ok member wrapped
  obtain ⟨_,_,made⟩ := ((mem_units ok).2 unit).mp among
  constructor
  · exact ⟨unit,among,_,name ▸ unit_struct made⟩
  · exact ⟨unit,among,variant,(unit_emits ok among good.distinct).2 e member variant⟩

theorem entryAtLeast?_some {s : Status} {t : TypeExpr} {e : Entry} (found : p.entryAtLeast? s t = some e) :
    e ∈ p.catalog.entries ∧ e.key = t.key ∧ s ≤ e.status := by
  obtain ⟨known,reached⟩ := Option.filter_eq_some_iff.mp found
  obtain ⟨member,same⟩ := Catalog.entry?_some known
  exact ⟨member,same,of_decide_eq_true reached⟩

theorem wrapped_of_soft {t : TypeExpr} {e : Entry} (found : p.entryAtLeast? .soft t = some e) :
    e ∈ p.catalog.entries ∧ e.status ≠ .none := by
  obtain ⟨member,_,reached⟩ := entryAtLeast?_some found
  refine ⟨member,fun none => ?_⟩
  rw [none] at reached
  exact absurd reached (by decide)

namespace Provides
variable (provides : p.Provides units)
include provides

theorem argument (name : String) (t : TypeExpr) :
    (∀ r ∈ Stmt.referencesOfAll (p.argument name t).before, r.Declared units) ∧
      (p.argument name t).value.references = [] := by
  have taken : (Expr.ident name).references = [] := by rw [Expr.references]
  unfold Plan.argument
  dsimp only
  split
  next => simp
  next e found =>
    obtain ⟨member,wrapped⟩ := wrapped_of_soft found
    split
    · refine ⟨?_,taken⟩
      intro r inside
      simp only [Stmt.referencesOfAll,references_takeOut taken taken,List.append_nil,
        List.mem_singleton] at inside
      rw [inside]
      exact ⟨_,rfl,(provides e member wrapped).1⟩
    · simp [references_hardInner taken]

theorem variadicArgument (name : String) (elem : TypeExpr) :
    (∀ r ∈ Stmt.referencesOfAll (p.variadicArgument name elem).before, r.Declared units) ∧
      (p.variadicArgument name elem).value.references = [] := by
  unfold Plan.variadicArgument
  dsimp only
  split
  next => simp
  next e found =>
    obtain ⟨member,wrapped⟩ := wrapped_of_soft found
    have item : (Expr.ident "elem").references = [] := by rw [Expr.references]
    have slot : ((Expr.ident (name ++ "Inner")).index (.ident "idx")).references = [] := by simp
    refine ⟨?_,by rw [Expr.references]⟩
    intro r inside
    by_cases soft : e.status = .soft
    · simp only [soft,if_true,Stmt.referencesOfAll,Stmt.references,Expr.references,Expr.callee,
        Expr.referencesOfAll,references_takeOut item slot,List.append_nil,List.nil_append,
        List.mem_append,List.mem_singleton] at inside
      rcases inside with rfl | rfl
      · exact .inl rfl
      · exact ⟨_,rfl,(provides e member wrapped).1⟩
    · simp only [soft,if_false,Stmt.referencesOfAll,Stmt.references,Expr.references,Expr.callee,
        Expr.referencesOfAll,references_hardInner item,List.append_nil,List.mem_singleton] at inside
      rw [inside]
      exact .inl rfl

theorem arguments {e : Entry} {m : Selection} {params : List Param} {index : Nat} {args : List Argument}
    (ok : p.arguments e m index params = .ok args) : ∀ a ∈ args,
      (∀ r ∈ Stmt.referencesOfAll a.before, r.Declared units) ∧ a.value.references = [] := by
  induction params generalizing index args with
  | nil =>
    cases ok
    simp
  | cons param rest ih =>
    unfold Plan.arguments at ok
    dsimp only at ok
    split at ok
    next =>
      split at ok
      next elem _ =>
        cases ok
        rw [List.forall_mem_singleton]
        exact provides.variadicArgument _ elem
      next => cases ok
    next =>
      split at ok
      next => cases ok
      next others more =>
        cases ok
        rw [List.forall_mem_cons]
        exact ⟨provides.argument _ param.type,ih more⟩

theorem returned {transform value : Expr} {t : TypeExpr} (named : transform.callee = [])
    (transforms : transform.references = []) (taken : value.references = []) :
    ∀ r ∈ (p.returned transform value t).references, r.Declared units := by
  intro r inside
  unfold Plan.returned at inside
  split at inside
  next => simp [named,transforms,taken] at inside
  next =>
    split at inside
    next e found =>
      obtain ⟨member,wrapped⟩ := wrapped_of_soft found
      obtain ⟨_,unit,among,_,declared⟩ := provides e member wrapped
      simp only [Expr.references,Expr.callee,Expr.referencesOfAll,transforms,taken,List.append_nil,
        List.mem_singleton] at inside
      rw [inside]
      exact .inr ⟨unit,among,_,declared,rfl,rfl⟩
    next =>
      rw [taken] at inside
      cases inside

theorem callAndReturn {call transform : Expr} (results : List Param) (calls : call.references = [])
    (named : transform.callee = []) (transforms : transform.references = []) :
    ∀ r ∈ Stmt.referencesOfAll (p.callAndReturn call transform results), r.Declared units := by
  intro r inside
  unfold Plan.callAndReturn at inside
  split at inside
  next => simp [calls] at inside
  next =>
    simp only [Stmt.referencesOfAll,Stmt.references,calls,List.nil_append,List.append_nil] at inside
    obtain ⟨value,member,inside⟩ := Expr.mem_referencesOfAll.mp inside
    obtain ⟨⟨name,result⟩,_,rfl⟩ := List.mem_map.mp member
    exact provides.returned named transforms (by rw [Expr.references]) r inside

/-- Nothing is referred to in the body of a method that is not declared. -/
theorem forward {e : Entry} {proxy : String} {m : Selection} {f : FuncDecl}
    (ok : p.forward e proxy m = .ok f) : ∀ r ∈ Stmt.referencesOfAll f.body, r.Declared units := by
  obtain ⟨args,made,ok⟩ := bind_ok ok
  cases ok
  have each := provides.arguments made
  intro r inside
  obtain ⟨s,member,inside⟩ := Stmt.mem_referencesOfAll.mp inside
  rcases List.mem_append.mp member with before | rest
  · obtain ⟨a,among,before⟩ := List.mem_flatMap.mp before
    exact (each a among).1 r (Stmt.mem_referencesOfAll.mpr ⟨s,before,inside⟩)
  · have values : Expr.referencesOfAll (args.map Argument.value) = [] := by
      apply List.eq_nil_iff_forall_not_mem.mpr
      intro r inside
      obtain ⟨value,member,inside⟩ := Expr.mem_referencesOfAll.mp inside
      obtain ⟨a,among,rfl⟩ := List.mem_map.mp member
      rw [(each a among).2] at inside
      cases inside
    refine provides.callAndReturn m.signature.results ?_ ?_ ?_ r
      (Stmt.mem_referencesOfAll.mpr ⟨s,rest,inside⟩)
    · simp [values]
    · rfl
    · simp

theorem written (good : p.catalog.WellFormed p.types) (t : TypeExpr) :
    p.Written units t (p.wrappedType t) where
  stands := stands_wrappedType good.distinct t
  declared h member _ isHard := (provides h member (by simp [isHard])).1

/-- The constructor is that of the entry which the type has, and both name the proxy of this entry. -/
theorem constructed (good : p.catalog.WellFormed p.types) (transform value : Expr) (t : TypeExpr) :
    p.Constructed units t (p.wrappedType t) (p.returned transform value t) := by
  intro other h member same isHard
  obtain ⟨_,unit,among,variant,declared⟩ := provides h member (by simp [isHard])
  have own : h.key = h.descriptor.type.key := (Catalog.ofType_key (good.described h member).1).1
  have found : p.entryAtLeast? .soft t = some h :=
    entryAtLeast?_of_mem good.distinct member same (isHard ▸ by decide)
  refine ⟨unit,among,variant,_,rfl,declared,⟨[value,transform],?_⟩,_,rfl,?_⟩
  · simp only [Plan.returned,other,Bool.false_eq_true,if_false,found]
    rfl
  · rw [wrappedType_of_hard good.distinct member own isHard,
      wrappedType_of_hard good.distinct member same isHard]
    exact TypeRef.text_pointers _ _

theorem constructs (good : p.catalog.WellFormed p.types) (e : Entry) (proxy : String) :
    p.Constructs units e (p.constructor e proxy) where
  params := rfl
  result := ⟨_,rfl,provides.written good e.descriptor.type⟩

theorem returns (good : p.catalog.WellFormed p.types) (call transform : Expr) {results : List Param}
    (some : results ≠ []) : ∃ names values,
      p.callAndReturn call transform results = [.define names call,.ret values] ∧
        List.Forall₂ (fun (r : Param × TypeRef) value => p.Constructed units r.1.type r.2 value)
          (results.zip (results.map fun r => p.wrappedType r.type)) values := by
  have more : results.isEmpty = false := by simpa using some
  unfold Plan.callAndReturn
  rw [more]
  refine ⟨_,_,rfl,?_⟩
  generalize named : ((List.range results.length).map resultName).zip results = pairs
  have second : results = pairs.map Prod.snd := by
    rw [← named,List.map_snd_zip (by simp)]
  have typed : results.zip (results.map fun r => p.wrappedType r.type) =
      pairs.map fun pair => (pair.2,p.wrappedType pair.2.type) := by
    rw [second,List.map_map,List.zip_map']
    rfl
  rw [typed,List.forall₂_map_left_iff,List.forall₂_map_right_iff,List.forall₂_same]
  exact fun pair _ => provides.constructed good transform (.ident pair.1) pair.2.type

theorem delegates (good : p.catalog.WellFormed p.types) {e : Entry} {proxy : String} {m : Selection}
    {f : FuncDecl} (ok : p.forward e proxy m = .ok f) : p.Delegates units m f := by
  obtain ⟨params,results⟩ := forward_signature ok
  constructor
  case params =>
    refine params.imp ?_
    rintro s d ⟨type,_⟩
    rw [type]
    exact provides.written good s.1
  case results =>
    rw [results,List.forall₂_map_right_iff,List.forall₂_same]
    exact fun r _ => provides.written good r.type
  case returned =>
    intro some
    obtain ⟨args,_,ok⟩ := bind_ok ok
    cases ok
    dsimp only
    obtain ⟨names,values,equal,each⟩ := provides.returns good _ _ some
    refine ⟨values,?_,each⟩
    rw [equal,List.getLast?_append]
    rfl

end Provides

theorem forward_receiver {e : Entry} {proxy : String} {m : Selection} {f : FuncDecl}
    (ok : p.forward e proxy m = .ok f) :
    ∃ r, f.receiver = some r ∧ (r.type = .name proxy ∨ r.type = .pointer (.name proxy)) := by
  obtain ⟨args,_,ok⟩ := bind_ok ok
  cases ok
  refine ⟨_,rfl,?_⟩
  dsimp only
  split
  · exact .inr rfl
  · exact .inl rfl

theorem closed (good : p.catalog.WellFormed p.types) (ok : p.units = .ok units) : p.Closed units := by
  have provides := provides_of_units good ok
  have functions {unit : OutputUnit} (among : unit ∈ units) {f : FuncDecl}
      (member : Decl.func f ∈ unit.file.decls) : ∃ e ∈ p.catalog.entries, e.key ∈ unit.variants ∧
        (f = p.constructor e unit.proxyName ∨ ∃ m, p.Emits unit e m f) := by
    obtain ⟨g,needed,made⟩ := ((mem_units ok).2 unit).mp among
    have group := (mem_wrappedGroups.mp needed).1
    obtain ⟨_,variants,_,functions⟩ := unit_functions made
    obtain ⟨e,inside,made⟩ := (functions f).mp member
    have variant : e.key ∈ unit.variants := by
      rw [variants]
      exact List.mem_map_of_mem inside
    refine ⟨e,((Catalog.mem_wrappedMembers_iff good group).mp inside).1,variant,made.imp_right ?_⟩
    rintro ⟨m,owned,forwards⟩
    exact ⟨m,variant,owned,forwards⟩
  constructor
  case proxies =>
    intro unit among
    obtain ⟨g,_,made⟩ := ((mem_units ok).2 unit).mp among
    exact ⟨_,unit_struct made⟩
  case bodies =>
    intro unit among f member r inside
    obtain ⟨e,_,_,rfl | ⟨m,emits⟩⟩ := functions among member
    · obtain ⟨g,_,made⟩ := ((mem_units ok).2 unit).mp among
      rw [references_constructorBody inside]
      exact ⟨_,rfl,unit,among,_,unit_struct made⟩
    · exact provides.forward emits.forwards r inside
  case constructors =>
    intro unit among f member plain
    obtain ⟨e,present,variant,rfl | ⟨m,emits⟩⟩ := functions among member
    · exact ⟨e,present,variant,provides.constructs good e _⟩
    · exact absurd plain (forward_head emits.forwards).1
  case methods =>
    intro unit among f member r method
    obtain ⟨e,present,_,rfl | ⟨m,emits⟩⟩ := functions among member
    · cases method
    · obtain ⟨r',received,named⟩ := forward_receiver emits.forwards
      obtain rfl : r' = r := Option.some.inj (received.symm.trans method)
      exact ⟨named,e,present,m,emits,provides.delegates good emits.forwards⟩

/-- Generated units refer to nothing that they do not declare. -/
theorem closed_of_grown {u : Universe} {c : Catalog} {target : Target} (grown : Catalog.Grown u c)
    (ok : Plan.units ⟨c,u,target⟩ = .ok units) : Closed ⟨c,u,target⟩ units :=
  closed (p := ⟨c,u,target⟩) grown.wellFormed ok

end Plan

namespace Sample

/-- The `Dial` that is generated. Only the first of its results has a proxy. -/
def dialing : FuncDecl where
  receiver := some ⟨"iFacePS",.pointer (.name "PS")⟩
  name := "Dial"
  params := []
  results := [.name "PC",.pointer (.qualified "p" "p" "C")]
  body :=
    let self := Expr.ident "iFacePS"
    [.define ["r0","r1"] (.call (.selector (.selector self Plan.innerName) "Dial") [] false),
      .ret [.call (.ident "WrapPCValue") [.ident "r0",.selector self Plan.transformerName] false,.ident "r1"]]

theorem wrappedType_conn : plan.wrappedType (.named conn) = .name "PC" := by decide +kernel

theorem constructorName_conn : Naming.constructorName types (connEntry .hard).descriptor = "WrapPCValue" := by
  decide +kernel

theorem forward_dial : plan.forward (serverRefEntry .hard) "PS" ⟨"Dial",none,dial,true⟩ = .ok dialing := by
  have ref : plan.wrappedType (.pointer (.named conn)) = .pointer (.qualified "p" "p" "C") := by decide +kernel
  simp [Plan.forward,Plan.arguments,dial,returning,wrappedType_conn,ref]
  rfl

theorem dial_emitted {units : List OutputUnit} (good : plan.catalog.WellFormed plan.types)
    (planned : plan.units = .ok units) : ∃ unit ∈ units, Decl.func dialing ∈ unit.file.decls := by
  have member : serverRefEntry .hard ∈ plan.catalog.entries := List.mem_cons_self
  obtain ⟨unit,among,_,variant,name⟩ := Plan.unit_of_wrapped good planned member (by decide)
  have owned : ⟨"Dial",none,dial,true⟩ ∈ plan.ownedMethods (serverRefEntry .hard) := by decide
  have proxy : plan.proxyName (serverRefEntry .hard) = "PS" := proxyName_server
  have forwards := forward_dial
  rw [← proxy,← name] at forwards
  have emits := ((Plan.unit_emits planned among good.distinct).1 dialing).mpr ⟨_,member,_,variant,owned,forwards⟩
  exact ⟨unit,among,emits.1⟩

end Sample

namespace Plan

/-- What `Dial` calls for its first result stands in the unit of the connections, with the proxy that it
returns. -/
theorem sample_closed : ∃ units, Catalog.Grown Sample.types (Sample.catalog .hard) ∧
    Sample.plan.units = .ok units ∧ Sample.plan.Closed units ∧
    (∃ unit ∈ units, Decl.func Sample.dialing ∈ unit.file.decls) ∧
    .call "WrapPCValue" ∈ Stmt.referencesOfAll Sample.dialing.body ∧
    ∃ unit ∈ units, unit.rootKey = "p.C" ∧ (∃ fields, Decl.struct "PC" fields ∈ unit.file.decls) ∧
      ∃ f, Decl.func f ∈ unit.file.decls ∧ f.receiver = none ∧ f.name = "WrapPCValue" ∧
        f.results = [.name "PC"] := by
  obtain ⟨units,planned⟩ := Sample.plan_units
  have grown : Catalog.Grown Sample.types (Sample.catalog .hard) := .of_run Sample.run_types
  have good : Sample.plan.catalog.WellFormed Sample.plan.types := grown.wellFormed
  have closed : Sample.plan.Closed units := closed_of_grown grown planned
  have member : Sample.connEntry .hard ∈ Sample.plan.catalog.entries := by simp [Sample.plan,Sample.catalog]
  have proxy : Sample.plan.proxyName (Sample.connEntry .hard) = "PC" := Sample.proxyName_conn
  have calls : .call "WrapPCValue" ∈ Stmt.referencesOfAll Sample.dialing.body := by simp [Sample.dialing]
  obtain ⟨unit,among,root,variant,name⟩ := unit_of_wrapped good planned member (by decide)
  have declared := closed.proxies unit among
  rw [name,proxy] at declared
  refine ⟨units,grown,planned,closed,Sample.dial_emitted good planned,calls,unit,among,root,declared,
    _,(unit_emits planned among good.distinct).2 _ member variant,rfl,Sample.constructorName_conn,?_⟩
  exact congrArg (fun t => [t]) Sample.wrappedType_conn

end Plan
end ProxyGen
