import ProxyGen.Proofs.Grounding
import ProxyGen.Proofs.NameChains
import ProxyGen.Proofs.Records
import ProxyGen.Proofs.References

/-! What constructors store. The argument is dereferenced until no reference is left, those included that a name
stands for; the field it goes into has the type that is left when the references in sight are taken away. Where
the root of a group is itself a name for a reference, the value is of another type than its field. -/
namespace ProxyGen

open Code

namespace TypeExpr

def pointers : Nat → TypeExpr → TypeExpr
  | 0, t => t
  | n + 1, t => .pointer (pointers n t)

theorem pointers_root (t : TypeExpr) : t.root.pointers t.references = t := by
  induction t with
  | pointer t ih => exact congrArg pointer ih
  | _ => rfl

theorem root_pointers (n : Nat) (t : TypeExpr) : (t.pointers n).root = t.root := by
  induction n with
  | zero => rfl
  | succ n ih => exact ih

theorem references_pointers (n : Nat) (t : TypeExpr) : (t.pointers n).references = n + t.references := by
  induction n with
  | zero => exact (Nat.zero_add _).symm
  | succ n ih => rw [pointers,references,ih,Nat.add_right_comm]

theorem references_root (t : TypeExpr) : t.root.references = 0 := by
  induction t with
  | pointer t ih => exact ih
  | _ => rfl

end TypeExpr

namespace Universe

/-- Values of the first type can be dereferenced, which gives values of the second. -/
inductive Points (u : Universe) : TypeExpr → TypeExpr → Prop
  | pointer (t) : Points u (.pointer t) t
  | named {n t} (stands : u.underlying n = .ok (.pointer t)) : Points u (.named n) t

section Points
variable {u : Universe}

theorem Points.unique {t t₁ t₂ : TypeExpr} (first : u.Points t t₁) (second : u.Points t t₂) : t₁ = t₂ := by
  cases first with
  | pointer => cases second; rfl
  | named stands =>
    cases second with
    | named stands' =>
      cases stands.symm.trans stands'
      rfl

/-- The names that led to a type only keep its shape from being told. -/
theorem shapeFrom_subset {seen fewer : List NamedType} {t : TypeExpr} {s : Shape}
    (known : u.shapeFrom seen t = .ok s) (subset : fewer ⊆ seen) : u.shapeFrom fewer t = .ok s := by
  fun_induction shapeFrom u seen t generalizing fewer s with
  | case1 => cases known
  | case2 => cases known
  | case3 seen n fresh t stands ih =>
    rw [shapeFrom_named,if_neg fun member => fresh (subset member),stands]
    exact ih known (List.cons_subset_cons n subset)
  | case4 => cases known
  | case5 seen t s' below ih =>
    rw [shapeFrom,ih below subset]
    exact known
  | case6 | case7 =>
    rw [shapeFrom]
    exact known
  | case8 seen t notNamed notPointer notStruct notInterface =>
    rwa [shapeFrom.eq_5 u fewer t notNamed notPointer notStruct notInterface]

/-- Without names in the way only a reference has references over it. -/
theorem pointer_of_shapeFrom {seen : List NamedType} {t : TypeExpr} {kind : Kind} {depth : Nat}
    (nameless : t.asNamed? = none) (known : u.shapeFrom seen t = .ok ⟨kind,depth + 1⟩) :
    ∃ t', t = .pointer t' ∧ u.shapeFrom seen t' = .ok ⟨kind,depth⟩ := by
  cases t with
  | named n => cases nameless
  | pointer t =>
    rw [shapeFrom] at known
    split at known
    next => cases known
    next s below =>
      cases known
      exact ⟨t,rfl,below⟩
  | _ =>
    simp only [shapeFrom] at known
    cases known

theorem points_of_shape {t : TypeExpr} {kind : Kind} {depth : Nat}
    (known : u.shape t = .ok ⟨kind,depth + 1⟩) : ∃ t', u.Points t t' ∧ u.shape t' = .ok ⟨kind,depth⟩ := by
  cases name : t.asNamed? with
  | none =>
    obtain ⟨t',rfl,below⟩ := pointer_of_shapeFrom name known
    exact ⟨t',.pointer t',below⟩
  | some n =>
    obtain rfl : t = .named n := by cases t <;> cases name; rfl
    cases stands : u.underlying n with
    | error e =>
      rw [shape,shapeFrom_named,stands] at known
      cases known
    | ok t =>
      rw [shape_named stands] at known
      obtain ⟨t',rfl,below⟩ := pointer_of_shapeFrom (underlying_nameless stands) known
      exact ⟨t',.named stands,shapeFrom_subset below (List.nil_subset _)⟩

end Points
end Universe

namespace Code

/-- The types of expressions that dereference variables. -/
inductive Expr.Typed (u : Universe) (vars : List (String × TypeExpr)) : Expr → TypeExpr → Prop
  | ident {name t} (bound : vars.lookup name = some t) : Typed u vars (.ident name) t
  | deref {e t t'} (operand : Typed u vars e t) (points : u.Points t t') : Typed u vars (.deref e) t'

def Expr.dereferences : Expr → Nat
  | .deref e => e.dereferences + 1
  | _ => 0

/-- What is dereferenced. -/
def Expr.operand : Expr → Expr
  | .deref e => e.operand
  | e => e

/-- What a field is given in literals of a type. -/
def Expr.initializers (type : TypeRef) (field : String) : Expr → List Expr
  | .composite t fields => if t = type then (fields.filter (·.1 == field)).map (·.2) else []
  | .addrOf e => e.initializers type field
  | _ => []

def Stmt.initializers (type : TypeRef) (field : String) : Stmt → List Expr
  | .define _ e | .expr e => e.initializers type field
  | .ret values => values.flatMap (Expr.initializers type field)
  | _ => []

theorem Expr.Typed.unique {u : Universe} {vars : List (String × TypeExpr)} {e : Expr} {t₁ t₂ : TypeExpr}
    (first : e.Typed u vars t₁) (second : e.Typed u vars t₂) : t₁ = t₂ := by
  induction first generalizing t₂ with
  | ident bound =>
    cases second with
    | ident bound' => exact Option.some.inj (bound.symm.trans bound')
  | deref _ points ih =>
    cases second with
    | deref operand points' =>
      obtain rfl := ih operand
      exact points.unique points'

end Code

namespace Plan

section Derefs
variable {u : Universe} {vars : List (String × TypeExpr)} {e : Expr} {t : TypeExpr}

theorem dereferences_derefs (n : Nat) (e : Expr) :
    (derefs n e).dereferences = n + e.dereferences ∧ (derefs n e).operand = e.operand := by
  induction n generalizing e with
  | zero => exact ⟨(Nat.zero_add _).symm,rfl⟩
  | succ n ih =>
    obtain ⟨count,operand⟩ := ih (.deref e)
    refine ⟨?_,operand⟩
    rw [derefs,count,Expr.dereferences]
    omega

/-- All references can be gone through. -/
theorem typed_derefs {kind : Kind} {n : Nat} (typed : e.Typed u vars t) (known : u.shape t = .ok ⟨kind,n⟩) :
    ∃ t', (derefs n e).Typed u vars t' ∧ u.shape t' = .ok ⟨kind,0⟩ := by
  induction n generalizing e t with
  | zero => exact ⟨t,typed,known⟩
  | succ n ih =>
    obtain ⟨t',points,below⟩ := Universe.points_of_shape known
    exact ih (typed.deref points) below

theorem typed_pointers {n : Nat} (typed : e.Typed u vars (t.pointers n)) : (derefs n e).Typed u vars t := by
  induction n generalizing e with
  | zero => exact typed
  | succ n ih => exact ih (typed.deref (.pointer _))

end Derefs

section Initializers
variable (type : TypeRef) (field : String)

theorem initializers_nilGuard (n : Nat) : (nilGuard n).flatMap (Stmt.initializers type field) = [] := by
  cases n <;> rfl

theorem initializers_referTo (n level : Nat) : (referTo n level).flatMap (Stmt.initializers type field) = [] := by
  induction n generalizing level with
  | zero => rfl
  | succ n ih => exact ih (level + 1)

theorem initializers_returnProxy (literal : Expr) (n : Nat) :
    (returnProxy literal n).flatMap (Stmt.initializers type field) = literal.initializers type field := by
  match n with
  | 0 | 1 => simp [returnProxy,Stmt.initializers,Expr.initializers]
  | n + 2 =>
    rw [returnProxy,List.flatMap_cons,initializers_referTo,List.append_nil]
    rfl

end Initializers

/-- The literal in a constructor gives the field the argument from under its references. -/
theorem initializers_constructorBody (d : Descriptor) (proxy : String) :
    (constructorBody d proxy).flatMap (Stmt.initializers (.name proxy) innerName) =
      [derefs d.depth (.ident innerName)] := by
  rw [constructorBody,List.flatMap_append,initializers_nilGuard,initializers_returnProxy]
  simp [Expr.initializers,innerName,transformerName]

variable {p : Plan} {units : List OutputUnit}

/-- The proxy of a group, and the constructor of one of its variants with what it stores. -/
structure Stores (p : Plan) (unit : OutputUnit) (g : Group) (e : Entry) (stored : Expr) : Prop where
  variant : e.key ∈ unit.variants
  proxy : Decl.struct unit.proxyName [⟨innerName,.ofType p.types g.descriptor.type⟩,
    ⟨transformerName,p.transformer⟩] ∈ unit.file.decls
  constructor : ∃ f, Decl.func f ∈ unit.file.decls ∧ f.receiver = none ∧ f.name = p.constructorName e ∧
    f.params.head? = some ⟨innerName,.ofType p.types e.descriptor.type,false⟩ ∧
    f.body.flatMap (Stmt.initializers (.name unit.proxyName) innerName) = [stored]

theorem stores_of_wrapped (good : p.catalog.WellFormed p.types) (ok : p.units = .ok units) {e : Entry}
    (member : e ∈ p.catalog.entries) (wrapped : e.status ≠ .none) :
    ∃ g ∈ p.catalog.groups, g.key = e.root ∧ ∃ unit ∈ units,
      p.Stores unit g e (derefs e.descriptor.depth (.ident innerName)) := by
  obtain ⟨unit,among,root,variant,_⟩ := unit_of_wrapped good ok member wrapped
  obtain ⟨g,needed,made⟩ := ((mem_units ok).2 unit).mp among
  have declared := (unit_emits ok among good.distinct).2 e member variant
  exact ⟨g,(mem_wrappedGroups.mp needed).1,(unit_head made).2.2.symm.trans root,unit,among,variant,
    unit_struct made,_,declared,rfl,rfl,rfl,initializers_constructorBody _ _⟩

section Layers
variable {u : Universe} {d g : Descriptor} (described : Descriptor.ofType u d.type = .ok d)
  (grouped : Descriptor.ofType u g.type = .ok g)
include described grouped

theorem depth_of_root (root : g.type = d.type.root) : d.depth = d.type.references + g.depth := by
  obtain ⟨s,below,_,depth⟩ := Universe.shape_root (Descriptor.shape_of_ofType described)
  have shape := Descriptor.shape_of_ofType grouped
  rw [root,below] at shape
  cases shape
  exact depth.trans (Nat.add_comm ..)

theorem layered_iff (bare : g.type.references = 0) :
    d.type = g.type.pointers d.depth ↔ g.type = d.type.root ∧ g.depth = 0 := by
  constructor
  · intro layered
    have root : g.type = d.type.root := by
      rw [layered,TypeExpr.root_pointers,TypeExpr.root_eq_self bare]
    have references := congrArg TypeExpr.references layered
    rw [TypeExpr.references_pointers,bare,depth_of_root described grouped root] at references
    exact ⟨root,by omega⟩
  · rintro ⟨root,straight⟩
    rw [depth_of_root described grouped root,straight,Nat.add_zero,root,TypeExpr.pointers_root]

/-- The value has the type of the root if the root is no name for a reference. -/
theorem typed_root_iff (root : g.type = d.type.root) :
    (derefs d.depth (.ident innerName)).Typed u [(innerName,d.type)] g.type ↔ g.depth = 0 := by
  have bound : (Expr.ident innerName).Typed u [(innerName,d.type)] d.type := .ident List.lookup_cons_self
  constructor
  · intro fits
    obtain ⟨t,typed,bottom⟩ := typed_derefs bound (Descriptor.shape_of_ofType described)
    rw [typed.unique fits,Descriptor.shape_of_ofType grouped] at bottom
    exact congrArg Shape.depth (Except.ok.inj bottom)
  · intro straight
    have bare : g.type.references = 0 := by
      rw [root]
      exact TypeExpr.references_root _
    have layered := (layered_iff described grouped bare).mpr ⟨root,straight⟩
    apply typed_pointers
    rw [← layered]
    exact bound

end Layers

/-- A constructor takes away as many references as there are over the root of the group exactly where that root
stands for none itself, and only then the value has the type of the field. -/
theorem stored_type_iff {u : Universe} {c : Catalog} (grown : Catalog.Grown u c) (target : Target)
    (ok : Plan.units ⟨c,u,target⟩ = .ok units) {e : Entry} (member : e ∈ c.entries) (wrapped : e.status ≠ .none) :
    ∃ g ∈ c.groups, g.key = e.root ∧ ∃ unit ∈ units, ∃ stored, Stores ⟨c,u,target⟩ unit g e stored ∧
      stored.operand = .ident innerName ∧
      (∃ t, stored.Typed u [(innerName,e.descriptor.type)] t ∧ u.shape t = .ok ⟨e.descriptor.kind,0⟩) ∧
      (e.descriptor.type = g.descriptor.type.pointers stored.dereferences ↔
        g.descriptor.type = e.descriptor.type.root ∧ g.descriptor.depth = 0) ∧
      (g.descriptor.type = e.descriptor.type.root →
        stored.dereferences = e.descriptor.type.references + g.descriptor.depth ∧
        (stored.Typed u [(innerName,e.descriptor.type)] g.descriptor.type ↔ g.descriptor.depth = 0)) := by
  have good := grown.wellFormed
  obtain ⟨g,group,named,unit,among,stores⟩ := stores_of_wrapped (p := ⟨c,u,target⟩) good ok member wrapped
  obtain ⟨count,operand⟩ := dereferences_derefs e.descriptor.depth (.ident innerName)
  rw [show (Expr.ident innerName).dereferences = 0 from rfl,Nat.add_zero] at count
  have described := (good.described e member).1
  have grouped := grown.tidy.groups g group
  have bare : g.descriptor.type.references = 0 := by
    obtain ⟨x,_,_,stripped⟩ := grown.founded.described g group
    rw [stripped]
    exact TypeExpr.references_root _
  refine ⟨g,group,named,unit,among,_,stores,operand,?_,?_,
    fun root => ⟨?_,typed_root_iff described grouped root⟩⟩
  · exact typed_derefs (.ident List.lookup_cons_self) (Descriptor.shape_of_ofType described)
  · rw [count]
    exact layered_iff described grouped bare
  · rw [count]
    exact depth_of_root described grouped root

theorem sample_stored : ∃ units, Catalog.Grown Sample.types (Sample.catalog .hard) ∧
    Sample.plan.units = .ok units ∧ Sample.serverRefEntry .hard ∈ (Sample.catalog .hard).entries ∧
    (Sample.serverRefEntry .hard).status ≠ .none ∧ ∃ unit ∈ units, ∃ stored,
      Stores Sample.plan unit Sample.serverGroup (Sample.serverRefEntry .hard) stored ∧ stored.dereferences = 1 ∧
      stored.Typed Sample.types [(innerName,.pointer (.named Sample.server))] (.named Sample.server) := by
  obtain ⟨units,planned⟩ := Sample.plan_units
  have grown : Catalog.Grown Sample.types (Sample.catalog .hard) := .of_run Sample.run_types
  have member : Sample.serverRefEntry .hard ∈ (Sample.catalog .hard).entries := List.mem_cons_self
  have wrapped : (Sample.serverRefEntry .hard).status ≠ .none := by decide
  obtain ⟨g,group,named,unit,among,stored,stores,_,_,_,fits⟩ :=
    stored_type_iff grown ⟨"out","","Transform"⟩ planned member wrapped
  obtain rfl : g = Sample.serverGroup := by
    rcases List.mem_cons.mp group with same | later
    · exact same
    · obtain rfl := List.mem_singleton.mp later
      exact absurd named (by decide)
  obtain ⟨count,typed⟩ := fits rfl
  exact ⟨units,grown,planned,member,wrapped,unit,among,stored,stores,count,typed.mpr rfl⟩

end Plan

namespace Grip

def bar : NamedType := ⟨"p","Bar"⟩

def grip : NamedType := ⟨"p","Grip"⟩

/-- A struct, and a name for references to it. -/
def types : Universe := ⟨[⟨"p","p",[⟨"Bar",.struct,.struct,[],[]⟩,⟨"Grip",.other,.pointer (.named bar),[],[]⟩]⟩]⟩

def entry (s : Status) : Entry := ⟨⟨"p.Grip",.struct,1,.named grip⟩,"p.Grip",s,[]⟩

def group : Group := ⟨⟨"p.Grip",.struct,1,.named grip⟩,[],["p.Grip"]⟩

def catalog (s : Status) : Catalog := ⟨[entry s],[group],[]⟩

def plan : Plan := ⟨catalog .hard,types,⟨"out","","Transform"⟩⟩

theorem underlying_grip : types.underlying grip = .ok (.pointer (.named bar)) := by decide +kernel

open Evaluation in
theorem registered : Catalog.empty.register types (.named grip) none = .ok (catalog .none) := by
  have struct : types.underlying bar = .ok .struct := by decide +kernel
  have apart : bar ≠ grip := by decide
  have key : grip.key = "p.Grip" := by decide +kernel
  simp [key,apart,underlying_grip,struct]
  rfl

theorem grown : Catalog.Grown types (catalog .hard) := by
  have raised : (catalog .none).raise "p.Grip" .hard = catalog .hard := by decide
  have entered : Catalog.Grown types (catalog .none) :=
    .tail .refl (.register (.named grip) none (by simp) registered)
  rw [← raised]
  exact entered.tail (.raise "p.Grip" .hard)

theorem plan_units : ∃ units, plan.units = .ok units := by
  have groups : plan.catalog.wrappedGroups = [group] := by decide +kernel
  have fileName : Naming.fileName types (.named grip) = "p_grip.go" := by decide +kernel
  have proxyName : Naming.proxyName types (.named grip) = "PGrip" := by decide +kernel
  apply Plan.units_total plan (by decide)
  · rw [groups]
    simp
  · rw [groups]
    simp [Plan.names,plan,group,Group.key,fileName,proxyName,Plan.collision?,List.lookup_cons]

end Grip

namespace Plan

/-- The constructor for the name dereferences its argument once, and stores the struct where a reference to it is
declared, although there is no reference between the type and the root of its group. -/
theorem grip_misfits : Catalog.Grown Grip.types (Grip.catalog .hard) ∧
    Grip.entry .hard ∈ (Grip.catalog .hard).entries ∧ (Grip.entry .hard).status ≠ .none ∧
    ∃ units, Grip.plan.units = .ok units ∧ ∃ unit ∈ units, ∃ stored,
      Stores Grip.plan unit Grip.group (Grip.entry .hard) stored ∧ stored = .deref (.ident innerName) ∧
      (Grip.entry .hard).descriptor.type = Grip.group.descriptor.type.pointers 0 ∧
      stored.Typed Grip.types [(innerName,.named Grip.grip)] (.named Grip.bar) ∧
      ¬ stored.Typed Grip.types [(innerName,.named Grip.grip)] Grip.group.descriptor.type := by
  obtain ⟨units,planned⟩ := Grip.plan_units
  have good : Grip.plan.catalog.WellFormed Grip.plan.types := Grip.grown.wellFormed
  have member : Grip.entry .hard ∈ Grip.plan.catalog.entries := List.mem_cons_self
  have wrapped : (Grip.entry .hard).status ≠ .none := by decide
  obtain ⟨g,group,_,unit,among,stores⟩ := stores_of_wrapped good planned member wrapped
  obtain rfl := List.mem_singleton.mp group
  have typed : (Expr.deref (.ident innerName)).Typed Grip.types [(innerName,.named Grip.grip)] (.named Grip.bar) :=
    .deref (.ident List.lookup_cons_self) (.named Grip.underlying_grip)
  refine ⟨Grip.grown,member,wrapped,units,planned,unit,among,_,stores,rfl,rfl,typed,fun fits => ?_⟩
  exact absurd (typed.unique fits) (by decide)

end Plan
end ProxyGen
