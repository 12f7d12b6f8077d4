import ProxyGen.Proofs.Rearrangement
import ProxyGen.Proofs.Units
import ProxyGen.Universe.Building

/-!
Descriptions in another order. A declaration is read by itself, but for the names before it, which only must not
have its own; so what can be read in one order can be read in the other, and generation does not tell the two
universes apart.
-/
namespace ProxyGen

namespace Description

/-- The same type with its methods in another order; no two of them have one name. -/
structure TypeSpec.Reorders (t t' : TypeSpec) : Prop where
  name : t.name = t'.name
  kind : t.kind = t'.kind
  underlying : t.underlying = t'.underlying
  embeds : t.embeds = t'.embeds
  methods : t.methods.Perm t'.methods
  distinct : (t.methods.map Method.name).Nodup

structure Package.Reorders (p p' : Package) : Prop where
  path : p.path = p'.path
  name : p.name = p'.name
  types : Rearranged TypeSpec.Reorders p.types p'.types

end Description

/-- The packages, their types and the methods of these stand in another order. -/
def Description.Reorders (d d' : Description) : Prop :=
  Rearranged Description.Package.Reorders d.packages d'.packages

theorem Description.Reorders.symm {d d' : Description} (reorders : d.Reorders d') : d'.Reorders d := by
  refine Rearranged.symm reorders fun p p' related => ⟨related.path.symm,related.name.symm,?_⟩
  refine related.types.symm fun t t' related => ?_
  exact ⟨related.name.symm,related.kind.symm,related.underlying.symm,related.embeds.symm,
    related.methods.symm,(related.methods.map _).nodup_iff.mp related.distinct⟩

section Lists
variable {α β : Type}

theorem mapM_perm {f : α → Except Error β} {l l' : List α} {results : List β} (perm : l.Perm l')
    (ok : l.mapM f = .ok results) : ∃ results', l'.mapM f = .ok results' ∧ results.Perm results' := by
  obtain ⟨results',each,perm'⟩ := List.perm_comp_forall₂ perm.symm (mapM_forall₂ ok)
  exact ⟨results',mapM_of_forall₂ each,perm'.symm⟩

/-- Where all elements can be read, so can those that stand for them, and what is read stands for what was
read. -/
theorem Rearranged.read {α' β' : Type} {R : α → α' → Prop} {S : β → β' → Prop} {F : α → β → Prop}
    {F' : α' → β' → Prop} {l : List α} {l' : List α'} {m : List β} (related : Rearranged R l l')
    (each : List.Forall₂ F l m) (step : ∀ a a' b, R a a' → F a b → ∃ b', F' a' b' ∧ S b b') :
    ∃ m', List.Forall₂ F' l' m' ∧ Rearranged S m m' := by
  obtain ⟨mid,aligned,perm⟩ := related
  obtain ⟨between,reads,same⟩ : ∃ between, List.Forall₂ F' mid between ∧ List.Forall₂ S m between := by
    clear perm
    induction aligned generalizing m with
    | nil =>
      cases each
      exact ⟨[],.nil,.nil⟩
    | cons first _ ih =>
      obtain _ | ⟨read,others⟩ := each
      obtain ⟨b',read',same⟩ := step _ _ _ first read
      obtain ⟨rest,reads,sames⟩ := ih others
      exact ⟨b' :: rest,.cons read' reads,.cons same sames⟩
  obtain ⟨m',reads',perm'⟩ := List.perm_comp_forall₂ perm.symm reads
  exact ⟨m',reads',between,same,perm'.symm⟩

/-- Reading element after element is reading each by itself, if only a name that was read before can keep an
element from being read. -/
theorem foldlM_eq_ok_iff {read : List β → α → Except Error β} {key : α → String} {key' : β → String}
    (alone : ∀ before a b, read before a = .ok b ↔ read [] a = .ok b ∧ key a ∉ before.map key')
    (named : ∀ a b, read [] a = .ok b → key' b = key a) (l : List α) (before result : List β) :
    l.foldlM (fun before a => do return before ++ [← read before a]) before = .ok result ↔
      ∃ new, result = before ++ new ∧ List.Forall₂ (fun a b => read [] a = .ok b) l new ∧
        (l.map key).Nodup ∧ ∀ a ∈ l, key a ∉ before.map key' := by
  induction l generalizing before with
  | nil =>
    constructor
    · intro ok
      cases ok
      exact ⟨[],by simp,.nil,by simp,by simp⟩
    · rintro ⟨new,rfl,none,_⟩
      cases none
      simp [pure,Except.pure]
  | cons a rest ih =>
    rw [List.foldlM_cons]
    constructor
    · intro ok
      obtain ⟨_,first,ok⟩ := bind_ok ok
      obtain ⟨b,known,grown⟩ := bind_ok first
      cases grown
      obtain ⟨own,fresh⟩ := (alone before a b).mp known
      obtain ⟨new,rfl,each,distinct,others⟩ := (ih _).mp ok
      rw [List.map_append,List.map_singleton,named a b own] at others
      refine ⟨b :: new,by simp,.cons own each,?_,?_⟩
      · refine List.nodup_cons.mpr ⟨fun repeated => ?_,distinct⟩
        obtain ⟨a',member,same⟩ := List.mem_map.mp repeated
        exact others a' member (by simp [same])
      · intro a' member
        rcases List.mem_cons.mp member with rfl | member
        · exact fresh
        · exact fun known => others a' member (List.mem_append_left _ known)
    · rintro ⟨_,rfl,each,distinct,others⟩
      obtain _ | ⟨own,each⟩ := each
      rename_i b new
      obtain ⟨absent,distinct⟩ := List.nodup_cons.mp distinct
      have known := (alone before a b).mpr ⟨own,others a List.mem_cons_self⟩
      rw [known]
      refine (ih _).mpr ⟨new,by simp,each,distinct,?_⟩
      intro a' member
      rw [List.map_append,List.map_singleton,named a b own,List.mem_append,List.mem_singleton]
      rintro (known | same)
      · exact others a' (List.mem_cons_of_mem _ member) known
      · exact absent (same ▸ List.mem_map_of_mem member)

/-- Names that stay when elements are read. -/
theorem map_eq_of_read {read : α → Except Error β} {key : α → String} {key' : β → String}
    (named : ∀ a b, read a = .ok b → key' b = key a) {l : List α} {results : List β}
    (each : List.Forall₂ (fun a b => read a = .ok b) l results) : results.map key' = l.map key := by
  rw [← List.forall₂_eq_eq_eq,List.forall₂_map_left_iff,List.forall₂_map_right_iff]
  exact each.flip.imp fun b a known => named a b known

end Lists

namespace Universe

theorem readMethod_name {home : String} {kind : Kind} {m : Description.Method} {d : MethodDecl}
    (read : readMethod home kind m = .ok d) : d.name = m.name := by
  obtain ⟨params,_,read⟩ := bind_ok read
  obtain ⟨results,_,read⟩ := bind_ok read
  dsimp only at read
  split at read
  · cases read
  · cases read
    rfl

theorem readTypeSpec_eq_ok_iff {home : String} {before : List TypeDecl} {t : Description.TypeSpec}
    {d : TypeDecl} : readTypeSpec home before t = .ok d ↔
      (∃ underlying embeds methods, readUnderlying home t = .ok underlying ∧
        t.embeds.mapM (readType home) = .ok embeds ∧ t.methods.mapM (readMethod home t.kind) = .ok methods ∧
          d = ⟨t.name,t.kind,underlying,embeds,methods⟩) ∧ t.name ∉ before.map TypeDecl.name := by
  have taken : before.any (·.name == t.name) = true ↔ t.name ∈ before.map TypeDecl.name := by
    simp [List.any_eq_true]
  constructor
  · intro read
    obtain ⟨underlying,stands,read⟩ := bind_ok read
    obtain ⟨embeds,embedded,read⟩ := bind_ok read
    obtain ⟨methods,declared,read⟩ := bind_ok read
    dsimp only at read
    split at read
    next => cases read
    next free =>
      cases read
      exact ⟨⟨underlying,embeds,methods,stands,embedded,declared,rfl⟩,fun known => free (taken.mpr known)⟩
  · rintro ⟨⟨underlying,embeds,methods,stands,embedded,declared,rfl⟩,free⟩
    rw [← taken] at free
    unfold readTypeSpec
    rw [stands,embedded,declared]
    simp only [bind,Except.bind,if_neg free]
    rfl

/-- A type can be read after others if it can be read alone and none of them has its name. -/
theorem readTypeSpec_alone (home : String) (before : List TypeDecl) (t : Description.TypeSpec) (d : TypeDecl) :
    readTypeSpec home before t = .ok d ↔
      readTypeSpec home [] t = .ok d ∧ t.name ∉ before.map TypeDecl.name := by
  rw [readTypeSpec_eq_ok_iff,readTypeSpec_eq_ok_iff]
  simp

theorem readTypeSpec_name {home : String} (t : Description.TypeSpec) (d : TypeDecl)
    (read : readTypeSpec home [] t = .ok d) : d.name = t.name := by
  obtain ⟨⟨_,_,_,_,_,_,rfl⟩,_⟩ := readTypeSpec_eq_ok_iff.mp read
  rfl

theorem readPackage_eq_ok_iff {before : List Package} {p : Description.Package} {q : Package} :
    readPackage before p = .ok q ↔
      (∃ types, q = ⟨p.path,clauseName p,types⟩ ∧
        List.Forall₂ (fun t d => readTypeSpec p.path [] t = .ok d) p.types types ∧
          (p.types.map Description.TypeSpec.name).Nodup) ∧ p.path ∉ before.map Package.path := by
  have taken : before.any (·.path == p.path) = true ↔ p.path ∈ before.map Package.path := by
    simp [List.any_eq_true]
  have alone := foldlM_eq_ok_iff (readTypeSpec_alone p.path) readTypeSpec_name p.types []
  unfold readPackage
  constructor
  · intro read
    by_cases known : before.any (·.path == p.path) = true
    · rw [if_pos known] at read
      cases read
    · rw [if_neg known] at read
      obtain ⟨types,ran,made⟩ := bind_ok read
      cases made
      obtain ⟨_,rfl,each,distinct,_⟩ := (alone _).mp ran
      exact ⟨⟨_,rfl,each,distinct⟩,fun present => known (taken.mpr present)⟩
  · rintro ⟨⟨types,rfl,each,distinct⟩,free⟩
    rw [← taken] at free
    rw [if_neg free,(alone _).mpr ⟨types,rfl,each,distinct,by simp⟩]
    rfl

theorem readPackage_alone (before : List Package) (p : Description.Package) (q : Package) :
    readPackage before p = .ok q ↔ readPackage [] p = .ok q ∧ p.path ∉ before.map Package.path := by
  rw [readPackage_eq_ok_iff,readPackage_eq_ok_iff]
  simp

theorem readPackage_path (p : Description.Package) (q : Package) (read : readPackage [] p = .ok q) :
    q.path = p.path := by
  obtain ⟨⟨_,rfl,_⟩,_⟩ := readPackage_eq_ok_iff.mp read
  rfl

theorem ofDescription_eq_ok_iff {d : Description} {u : Universe} : ofDescription d = .ok u ↔
    List.Forall₂ (fun p q => readPackage [] p = .ok q) d.packages u.packages ∧
      (d.packages.map Description.Package.path).Nodup := by
  have alone := foldlM_eq_ok_iff readPackage_alone readPackage_path d.packages []
  constructor
  · intro read
    obtain ⟨packages,ran,made⟩ := bind_ok read
    cases made
    obtain ⟨_,rfl,each,distinct,_⟩ := (alone _).mp ran
    exact ⟨each,distinct⟩
  · rintro ⟨each,distinct⟩
    unfold ofDescription
    rw [(alone _).mpr ⟨u.packages,rfl,each,distinct,by simp⟩]
    rfl

end Universe

namespace Description

theorem TypeSpec.Reorders.read {home : String} {t t' : TypeSpec} {d : TypeDecl} (reorders : t.Reorders t')
    (read : Universe.readTypeSpec home [] t = .ok d) :
    ∃ d', Universe.readTypeSpec home [] t' = .ok d' ∧ d.Reorders d' := by
  obtain ⟨⟨underlying,embeds,methods,stands,embedded,declared,rfl⟩,free⟩ :=
    Universe.readTypeSpec_eq_ok_iff.mp read
  have names := map_eq_of_read (fun _ _ => Universe.readMethod_name) (mapM_forall₂ declared)
  obtain ⟨methods',declared',perm⟩ := mapM_perm reorders.methods declared
  have same : Universe.readUnderlying home t' = Universe.readUnderlying home t := by
    unfold Universe.readUnderlying
    rw [reorders.kind,reorders.underlying,reorders.name]
  rw [reorders.kind] at declared'
  rw [← same] at stands
  rw [reorders.embeds] at embedded
  refine ⟨⟨t'.name,t'.kind,underlying,embeds,methods'⟩,?_,?_⟩
  · exact Universe.readTypeSpec_eq_ok_iff.mpr
      ⟨⟨underlying,embeds,methods',stands,embedded,declared',rfl⟩,by simp⟩
  · exact ⟨reorders.name,reorders.kind,rfl,rfl,perm,names ▸ reorders.distinct⟩

theorem Package.Reorders.read {p p' : Package} {q : ProxyGen.Package} (reorders : p.Reorders p')
    (read : Universe.readPackage [] p = .ok q) :
    ∃ q', Universe.readPackage [] p' = .ok q' ∧ q.Reorders q' := by
  obtain ⟨⟨types,rfl,each,distinct⟩,free⟩ := Universe.readPackage_eq_ok_iff.mp read
  have names := map_eq_of_read Universe.readTypeSpec_name each
  obtain ⟨types',each',rearranged⟩ := reorders.types.read each fun t t' d same read => same.read read
  rw [reorders.path] at each'
  have clause : Universe.clauseName p = Universe.clauseName p' := by
    unfold Universe.clauseName
    rw [reorders.name,reorders.path]
  have distinct' := (reorders.types.map fun _ _ same => same.name).nodup_iff.mp distinct
  refine ⟨⟨p'.path,Universe.clauseName p',types'⟩,?_,?_⟩
  · exact Universe.readPackage_eq_ok_iff.mpr ⟨⟨types',rfl,each',distinct'⟩,by simp⟩
  · exact ⟨reorders.path,clause,rearranged,names ▸ distinct⟩

theorem Reorders.read {d d' : Description} {u : Universe} (reorders : d.Reorders d')
    (read : Universe.ofDescription d = .ok u) :
    ∃ u', Universe.ofDescription d' = .ok u' ∧ u.Reorders u' := by
  obtain ⟨each,distinct⟩ := Universe.ofDescription_eq_ok_iff.mp read
  have paths := map_eq_of_read Universe.readPackage_path each
  obtain ⟨packages,each',rearranged⟩ := Rearranged.read reorders each fun p p' q same read => same.read read
  have distinct' := (Rearranged.map reorders fun _ _ same => same.path).nodup_iff.mp distinct
  exact ⟨⟨packages⟩,Universe.ofDescription_eq_ok_iff.mpr ⟨each',distinct'⟩,rearranged,paths ▸ distinct⟩

end Description

namespace Generation

/-- A description can be read in every order in which it is written or in none, and every run on it is the same
in all of them. -/
theorem run_reordered {d d' : Description} (reorders : d.Reorders d') :
    ((∃ u, Universe.ofDescription d = .ok u) ↔ ∃ u', Universe.ofDescription d' = .ok u') ∧
      ∀ u u', Universe.ofDescription d = .ok u → Universe.ofDescription d' = .ok u' →
        ∀ s here, run s u here = run s u' here := by
  refine ⟨⟨?_,?_⟩,?_⟩
  · rintro ⟨u,read⟩
    obtain ⟨u',read',_⟩ := reorders.read read
    exact ⟨u',read'⟩
  · rintro ⟨u',read'⟩
    obtain ⟨u,read,_⟩ := reorders.symm.read read'
    exact ⟨u,read⟩
  · intro u u' read read' s here
    obtain ⟨other,known,same⟩ := reorders.read read
    rw [read'] at known
    cases known
    exact run_congr same.agrees s here

end Generation

namespace Shuffled

def dial : Description.Method := ⟨"Dial",.pointer,none,[],[.bare "C",.bare "*C"],false⟩

def label : Description.Method := ⟨"Name",.value,none,[],[.bare "string"],false⟩

def close : Description.Method := ⟨"Close",.value,none,[],[.bare "error"],false⟩

def server (methods : List Description.Method) : Description.TypeSpec := ⟨"S",.struct,none,[],methods⟩

def conn : Description.TypeSpec := ⟨"C",.struct,none,[],[close]⟩

def straight : Description := ⟨[⟨"p",none,[server [dial,label],conn]⟩,⟨"q",none,[]⟩]⟩

/-- The packages, the types and the methods of the server stand the other way round. -/
def reversed : Description := ⟨[⟨"q",none,[]⟩,⟨"p",none,[conn,server [label,dial]]⟩]⟩

def settings : Settings := ⟨"u.json","p","S",["q"],"out",none,"","Transform",false⟩

theorem reorders : straight.Reorders reversed := by
  have same (t : Description.TypeSpec) (distinct : (t.methods.map Description.Method.name).Nodup) :
      t.Reorders t := ⟨rfl,rfl,rfl,rfl,.refl _,distinct⟩
  have swapped : (server [dial,label]).Reorders (server [label,dial]) :=
    ⟨rfl,rfl,rfl,rfl,.swap _ _ _,by decide⟩
  have types : Rearranged Description.TypeSpec.Reorders [server [dial,label],conn]
      [conn,server [label,dial]] :=
    ⟨_,.cons swapped (.cons (same conn (by decide)) .nil),.swap _ _ _⟩
  have p : (⟨"p",none,[server [dial,label],conn]⟩ : Description.Package).Reorders
      ⟨"p",none,[conn,server [label,dial]]⟩ := ⟨rfl,rfl,types⟩
  have q : (⟨"q",none,[]⟩ : Description.Package).Reorders ⟨"q",none,[]⟩ := ⟨rfl,rfl,[],.nil,.refl _⟩
  exact ⟨_,.cons p (.cons q .nil),.swap _ _ _⟩

def types : Universe := ⟨[
  ⟨"p","p",[
    ⟨"S",.struct,.struct,[],[⟨"Dial",true,none,Sample.dial⟩,⟨"Name",false,none,Sample.label⟩]⟩,
    ⟨"C",.struct,.struct,[],[⟨"Close",false,none,Sample.close⟩]⟩]⟩,
  ⟨"q","q",[]⟩]⟩

theorem reads : Universe.ofDescription straight = .ok types := by decide +kernel

theorem methods_server : types.methodSet (.named Sample.server) = .ok [⟨"Name",none,Sample.label,false⟩] := by cbv

theorem methods_serverRef : types.methodSet (.pointer (.named Sample.server)) =
    .ok [⟨"Dial",none,Sample.dial,true⟩,⟨"Name",none,Sample.label,true⟩] := by cbv

theorem methods_conn : types.methodSet (.named Sample.conn) = .ok [⟨"Close",none,Sample.close,false⟩] := by cbv

theorem methods_connRef :
    types.methodSet (.pointer (.named Sample.conn)) = .ok [⟨"Close",none,Sample.close,true⟩] := by cbv

open Evaluation in
/-- The package without types changes nothing. -/
theorem walk_types : Analysis.walk types (.named Sample.server) ["p","q"] =
    .ok ⟨Sample.catalog .none,[],["*p.C","p.C","p.S","*p.S"]⟩ := by
  have paths : Sample.server.path = "p" ∧ Sample.conn.path = "p" := ⟨rfl,rfl⟩
  have underlyings : types.underlying Sample.server = .ok .struct ∧ types.underlying Sample.conn = .ok .struct := by
    constructor <;> cbv
  simp [paths,underlyings,Sample.keys,methods_server,methods_serverRef,methods_conn,methods_connRef,
    Sample.exported,Sample.dial,Sample.label,Sample.close,Sample.returning]
  rfl

theorem run_types : Analysis.run types (.named Sample.server) ["p","q"] = .ok ⟨Sample.catalog .hard,4,1⟩ := by
  apply Analysis.run_of_walk walk_types
  cbv

def plan : Plan := ⟨Sample.catalog .hard,types,⟨"out","","Transform"⟩⟩

/-- What a run tells: a file for each of the two structs, the connection by value and the server by reference. -/
def summary : Summary where
  root := "p.S"
  packages := ["p","q"]
  discoveredTypes := 4
  dependencyEdges := 2
  statusUpgrades := 1
  wrappedTypes := 2
  outputDir := "out"
  dryRun := false
  units := [⟨"p_c.go","PC",["p.C"]⟩,⟨"p_s.go","PS",["*p.S"]⟩]

theorem plan_units : ∃ units, plan.units = .ok units ∧
    units.map (fun unit => (⟨unit.fileName,unit.proxyName,unit.variants⟩ : UnitSummary)) = summary.units := by
  have groups : plan.catalog.wrappedGroups = [Sample.connGroup,Sample.serverGroup] := Sample.wrappedGroups_plan
  have conn : Naming.fileName plan.types Sample.connGroup.descriptor.type = "p_c.go" ∧
      Naming.proxyName plan.types Sample.connGroup.descriptor.type = "PC" := by decide +kernel
  have server : Naming.fileName plan.types Sample.serverGroup.descriptor.type = "p_s.go" ∧
      Naming.proxyName plan.types Sample.serverGroup.descriptor.type = "PS" := by decide +kernel
  have names : plan.names Sample.connGroup = [("p_c.go","p.C"),("PC","p.C")] ∧
      plan.names Sample.serverGroup = [("p_s.go","p.S"),("PS","p.S")] := by
    rw [Plan.names,conn.1,conn.2,Plan.names,server.1,server.2]
    exact ⟨rfl,rfl⟩
  have fixed : ∀ e ∈ plan.catalog.entries, ∀ m ∈ e.methods, m.signature.variadic = false := by decide
  obtain ⟨units,planned,each⟩ := Plan.units_in_order plan
    (fun e member m listed proxy => Plan.forward_total plan e proxy (fixed e member m listed))
    (by simp only [groups,List.map,conn,server]; decide)
    (by simp [groups,names,Plan.collision?,List.lookup_cons])
  rw [groups] at each
  obtain ⟨first,rest,made,later,rfl⟩ := List.forall₂_cons_left_iff.mp each
  obtain ⟨second,none,made',last,rfl⟩ := List.forall₂_cons_left_iff.mp later
  obtain rfl := List.forall₂_nil_left_iff.mp last
  refine ⟨[first,second],planned,?_⟩
  obtain ⟨file,proxy,_⟩ := Plan.unit_head made
  obtain ⟨file',proxy',_⟩ := Plan.unit_head made'
  obtain ⟨_,variants,_⟩ := Plan.unit_functions made
  obtain ⟨_,variants',_⟩ := Plan.unit_functions made'
  have variant : (plan.catalog.wrappedMembers Sample.connGroup).map Entry.key = ["p.C"] := by decide +kernel
  have variant' : (plan.catalog.wrappedMembers Sample.serverGroup).map Entry.key = ["*p.S"] := by decide +kernel
  simp [file,proxy,file',proxy',variants,variants',variant,variant',conn,server,summary]

theorem run_settings : ∃ g, Generation.run settings types (some "/home") = .ok g ∧ g.summary = summary := by
  have input : types.resolvePackage settings.inputPackage = .ok "p" := by decide +kernel
  have root : types.lookupType "p" settings.typeName = .ok (.named Sample.server) := by decide +kernel
  have added : Generation.addPackages types ["p"] settings.additionalPackages = .ok ["p","q"] := by rfl
  have target : settings.target (some "/home") = .ok plan.target := by decide +kernel
  obtain ⟨units,planned,described⟩ := plan_units
  refine ⟨_,Generation.run_of input root added run_types target planned,?_⟩
  have wrapped : (Sample.catalog .hard).wrapped.length = 2 :=
    ((Text.sortBy_perm Entry.key _).filter Entry.needsProxy).length_eq
  simp only [Generation.summarize,described,wrapped]
  rfl

end Shuffled

namespace Generation

theorem shuffled_runs : Shuffled.straight.Reorders Shuffled.reversed ∧
    Universe.ofDescription Shuffled.straight = .ok Shuffled.types ∧
    ∃ u' g, Universe.ofDescription Shuffled.reversed = .ok u' ∧
      run Shuffled.settings Shuffled.types (some "/home") = run Shuffled.settings u' (some "/home") ∧
      run Shuffled.settings u' (some "/home") = .ok g ∧ g.summary = Shuffled.summary := by
  obtain ⟨both,same⟩ := run_reordered Shuffled.reorders
  obtain ⟨u',read'⟩ := both.mp ⟨_,Shuffled.reads⟩
  have equal := same _ _ Shuffled.reads read' Shuffled.settings (some "/home")
  obtain ⟨g,generated,summary⟩ := Shuffled.run_settings
  exact ⟨Shuffled.reorders,Shuffled.reads,u',g,read',equal,equal ▸ generated,summary⟩

end Generation
end ProxyGen
