import ProxyGen.Proofs.Units

/-! The methods of a unit. A type is granted each name once and lists what it was granted, and of the variants
that list a name only the one that holds the claim emits it; so a unit has no name twice. -/
namespace ProxyGen

namespace Group

theorem claimAll_sublist (owner : String) (methods : List Selection) (g : Group) :
    (g.claimAll owner methods).2.Sublist methods := by
  induction methods generalizing g with
  | nil => exact .slnil
  | cons m rest ih =>
    simp only [claimAll]
    split
    · exact (ih _).cons_cons m
    · exact (ih _).cons m

end Group

namespace Walk

theorem claimMethods_sublist (c : Catalog) (e : Entry) (methods : List Selection) :
    (claimMethods c e methods).2.Sublist methods := by
  unfold claimMethods
  split
  · exact List.nil_sublist methods
  · exact (Group.claimAll_sublist _ _ _).trans List.filter_sublist

/-- No entry lists a name twice. -/
def Distinct (ledger : List Entry) : Prop := ∀ e ∈ ledger, (Universe.names e.methods).Nodup

section Distinct
variable {u : Universe} {scope : List String} {cfg cfg' : Config}

/-- Before its turn a type has listed nothing. -/
theorem Settled.idle {claims : String → String → Option Claim} {ledger : List Entry} {key : String}
    {rest : List String} (settled : Settled u claims ledger (key :: rest)) {e : Entry} (member : e ∈ ledger)
    (head : e.key = key) : e.methods = [] := by
  rw [List.eq_nil_iff_forall_not_mem]
  intro m listed
  apply (settled.offers_of_listed member listed).1
  rw [head]
  exact List.mem_cons_self

theorem distinct_step (orderly : Orderly u scope cfg) (distinct : Distinct cfg.ledger)
    (step : Step u scope cfg cfg') : Distinct cfg'.ledger := by
  obtain ⟨sound,explored,settled,_⟩ := orderly
  cases step with
  | leave outside => exact distinct
  | revisit inside registered visited =>
    rw [(ledger_revisit explored registered visited).1]
    exact distinct
  | visit inside registered fresh =>
    obtain ⟨_,_,e,_,_,idle,equal⟩ := ledger_visit sound explored registered fresh
    rw [equal]
    intro e' member
    rcases List.mem_append.mp member with old | isNew
    · exact distinct e' old
    · rw [List.mem_singleton.mp isNew,idle]
      exact List.nodup_nil
  | expand known => exact distinct
  | raise error =>
    rw [ledger_raise]
    exact distinct
  | take value => exact distinct
  | @start w key rest e methods queued found offered =>
    obtain ⟨present,rfl⟩ := Catalog.entry?_some found
    have once := Universe.methodSet_nodup offered
    rw [ledger_start (claimMethods_grants sound.good present once)]
    change Settled u w.catalog.claim? _ w.queue at settled
    rw [queued] at settled
    intro e' member
    obtain ⟨x,inside,rfl⟩ := List.mem_map.mp member
    by_cases head : x.key = e.key
    · rw [← head,Settled.listing_self,settled.idle inside head,List.nil_append]
      exact once.sublist ((claimMethods_sublist w.catalog e methods).map Selection.name)
    · rw [Settled.listing_other head]
      exact distinct x inside
  | finish =>
    rw [ledger_finish]
    exact distinct
  | skip queued missing => exact distinct

theorem distinct_steps (orderly : Orderly u scope cfg) (distinct : Distinct cfg.ledger)
    (steps : Steps u scope cfg cfg') : Distinct cfg'.ledger := by
  induction steps with
  | refl => exact distinct
  | tail before last ih => exact distinct_step (orderly.steps before) ih last

theorem distinct_of_walk {root : TypeExpr} {packages : List String} {w : Walk}
    (done : Analysis.walk u root packages = .ok w) : Distinct w.catalog.ledger := by
  obtain ⟨t,_,_,walked⟩ := steps_of_walk done
  have last := distinct_steps (Orderly.start u _ t) (fun _ member => absurd member List.not_mem_nil) walked
  rw [Catalog.ledger_of_idle] at last
  exact last

end Distinct
end Walk

open Code

/-- The name of a method. Functions without a receiver are none. -/
def Code.Decl.method? : Decl → Option String
  | .struct _ _ => none
  | .func f => if f.receiver.isNone then none else some f.name

def OutputUnit.methodNames (unit : OutputUnit) : List String := unit.file.decls.filterMap Decl.method?

namespace Plan
variable {p : Plan}

/-- The function is declared like the method: the same parameters, the last of them variadic in both or in
neither, and the same results, with proxies in the place of hard types. -/
structure Transcribes (p : Plan) (m : Selection) (f : FuncDecl) : Prop where
  name : f.name = m.name
  params : List.Forall₂ (fun s (d : ParamDecl) => p.Stands s.1 d.type ∧ d.variadic = s.2)
    (Signature.declared m.signature.variadic m.signature.params) f.params
  results : List.Forall₂ (fun (r : Param) ref => p.Stands r.type ref) m.signature.results f.results

theorem transcribes_of_forward (distinct : p.catalog.keys.Nodup) {e : Entry} {proxy : String}
    {m : Selection} {f : FuncDecl} (ok : p.forward e proxy m = .ok f) : p.Transcribes m f := by
  obtain ⟨params,results⟩ := forward_signature ok
  refine ⟨(forward_head ok).2,params.imp ?_,?_⟩
  · rintro s d ⟨type,variadic⟩
    rw [type]
    exact ⟨stands_wrappedType distinct s.1,variadic⟩
  · rw [results,List.forall₂_map_right_iff,List.forall₂_same]
    exact fun r _ => stands_wrappedType distinct r.type

theorem methodNames_variantDecls {proxy : String} {e : Entry} {decls : List Decl}
    (ok : p.variantDecls proxy e = .ok decls) :
    decls.filterMap Decl.method? = Universe.names (p.ownedMethods e) := by
  obtain ⟨functions,forwarded,ok⟩ := bind_ok ok
  cases ok
  have named {methods : List Selection} {functions : List FuncDecl}
      (each : List.Forall₂ (fun m f => p.forward e proxy m = .ok f) methods functions) :
      (functions.map Decl.func).filterMap Decl.method? = Universe.names methods := by
    induction each with
    | nil => rfl
    | cons first _ ih =>
      obtain ⟨receiver,name⟩ := forward_head first
      rw [List.map_cons,List.filterMap_cons,ih]
      simp [Decl.method?,receiver,name,Universe.names]
  exact named (mapM_forall₂ forwarded)

theorem methodNames_unit {g : Group} {unit : OutputUnit} (ok : p.unit g = .ok unit) :
    unit.methodNames =
      (p.catalog.wrappedMembers g).flatMap fun e => Universe.names (p.ownedMethods e) := by
  obtain ⟨decls,made,ok⟩ := bind_ok ok
  cases ok
  have collected {members : List Entry} {decls : List (List Decl)} {proxy : String}
      (each : List.Forall₂ (fun e ds => p.variantDecls proxy e = .ok ds) members decls) :
      decls.flatten.filterMap Decl.method? =
        members.flatMap fun e => Universe.names (p.ownedMethods e) := by
    induction each with
    | nil => rfl
    | cons first _ ih =>
      rw [List.flatten_cons,List.filterMap_append,ih,methodNames_variantDecls first]
      rfl
  exact collected (mapM_forall₂ made)

/-- A name is owned by one entry of its group. -/
theorem owner_unique {e e' : Entry} {name : String} (roots : e.root = e'.root)
    (first : p.catalog.owns e name = true) (second : p.catalog.owns e' name = true) : e.key = e'.key := by
  unfold Catalog.owns Group.owns at first second
  rw [← roots] at second
  cases found : p.catalog.group? e.root with
  | none => simp [found] at first
  | some g =>
    cases held : g.claim? name with
    | none => simp [found,held] at first
    | some c =>
      simp only [found,held,beq_iff_eq] at first second
      exact first.symm.trans second

theorem methodNames_nodup (good : p.catalog.WellFormed p.types) (founded : p.catalog.Founded)
    (listed : ∀ e ∈ p.catalog.entries, (Universe.names e.methods).Nodup) {g : Group}
    (group : g ∈ p.catalog.groups) {unit : OutputUnit} (ok : p.unit g = .ok unit) :
    unit.methodNames.Nodup := by
  rw [methodNames_unit ok,List.nodup_flatMap]
  constructor
  · intro e wrapped
    have member := ((Catalog.mem_wrappedMembers_iff good group).mp wrapped).1
    exact (listed e member).sublist (List.filter_sublist.map Selection.name)
  · refine (Catalog.wrappedMembers_nodup good founded group).imp_of_mem ?_
    intro e e' wrapped wrapped' other name inside inside'
    obtain ⟨member,root,_⟩ := (Catalog.mem_wrappedMembers_iff good group).mp wrapped
    obtain ⟨member',root',_⟩ := (Catalog.mem_wrappedMembers_iff good group).mp wrapped'
    obtain ⟨m,owned,rfl⟩ := List.mem_map.mp inside
    obtain ⟨m',owned',same⟩ := List.mem_map.mp inside'
    have owns := (List.mem_filter.mp owned).2
    have owns' := (List.mem_filter.mp owned').2
    rw [same] at owns'
    exact other (Catalog.entry_unique good.distinct member member'
      (owner_unique (root.trans root'.symm) owns owns'))

end Plan

namespace Analysis
variable {u : Universe}

theorem listed_nodup {root : TypeExpr} {packages : List String} {a : Analysis}
    (ok : run u root packages = .ok a) :
    ∀ e ∈ a.catalog.entries, (Universe.names e.methods).Nodup := by
  obtain ⟨w,walked,rfl⟩ := walk_of_run ok
  intro e member
  obtain ⟨e₀,present,_,_,methods⟩ := (finished_of_walk walked).origin member
  have once := Walk.distinct_of_walk walked _ (Catalog.mem_ledger present)
  rw [← methods]
  exact once

/-- A unit has no method twice, and each of its methods is one of the type of a variant, declared as the
method set of the type has it. -/
theorem methods_emitted_once {root : TypeExpr} {packages : List String} {a : Analysis} {target : Target}
    {units : List OutputUnit} (ok : run u root packages = .ok a)
    (generated : Plan.units ⟨a.catalog,u,target⟩ = .ok units) {unit : OutputUnit}
    (among : unit ∈ units) :
    unit.methodNames.Nodup ∧
      ∀ f, Decl.func f ∈ unit.file.decls → f.receiver ≠ none →
        ∃ e ∈ a.catalog.entries, ∃ m, Plan.Emits ⟨a.catalog,u,target⟩ unit e m f ∧
          (∃ methods, u.methodSet e.descriptor.type = .ok methods ∧ m ∈ methods) ∧
          Plan.Transcribes ⟨a.catalog,u,target⟩ m f := by
  obtain ⟨w,finished⟩ := finished_of_run ok
  have grown := Catalog.Grown.of_run ok
  constructor
  · obtain ⟨g,needed,made⟩ := ((Plan.mem_units generated).2 unit).mp among
    have group := (Plan.mem_wrappedGroups.mp needed).1
    exact Plan.methodNames_nodup grown.wellFormed grown.founded (listed_nodup ok) group made
  · intro f declared method
    obtain ⟨e,member,m,emits⟩ :=
      ((Plan.unit_emits generated among finished.distinct).1 f).mp ⟨declared,method⟩
    have listed : m ∈ e.methods := (List.mem_filter.mp emits.owned).1
    obtain ⟨before,after,split⟩ := List.append_of_mem member
    obtain ⟨⟨methods,known,offered,_⟩,_⟩ := (finished.listed_iff split m).mp listed
    exact ⟨e,member,m,emits,⟨methods,known,offered⟩,
      Plan.transcribes_of_forward finished.distinct emits.forwards⟩

theorem hub_methods : ∃ units,
    run Hub.types (.named Hub.hub) [] = .ok ⟨Hub.catalog .hard .soft,6,2⟩ ∧
      Hub.plan.units = .ok units ∧ ∃ unit ∈ units, unit.methodNames.Nodup ∧
        ∃ f, Decl.func f ∈ unit.file.decls ∧ f.receiver ≠ none ∧ ∃ e ∈ (Hub.catalog .hard .soft).entries,
          ∃ m, Hub.plan.Emits unit e m f ∧
            (∃ methods, Hub.types.methodSet e.descriptor.type = .ok methods ∧ m ∈ methods) ∧
            Hub.plan.Transcribes m f := by
  obtain ⟨units,generated⟩ := Hub.plan_units
  obtain ⟨unit,among,_,f,emits⟩ := Hub.port_emitted generated
  have grown : Catalog.Grown Hub.types Hub.plan.catalog := .of_run Hub.run_types
  have member : Hub.portEntry ∈ (Hub.catalog .hard .soft).entries := by simp [Hub.catalog]
  obtain ⟨declared,method⟩ := ((Plan.unit_emits generated among grown.wellFormed.distinct).1 f).mpr
    ⟨Hub.portEntry,member,_,emits⟩
  obtain ⟨once,each⟩ := methods_emitted_once Hub.run_types generated among
  exact ⟨units,Hub.run_types,generated,unit,among,once,f,declared,method,each f declared method⟩

end Analysis
end ProxyGen
