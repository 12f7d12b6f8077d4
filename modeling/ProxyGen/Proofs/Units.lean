import Mathlib.Algebra.Ring.Nat
import ProxyGen.Generation
import ProxyGen.Proofs.Forwarding
import ProxyGen.Proofs.Operations
import ProxyGen.Proofs.Signatures

/-! How units share out what needs a proxy. Groups part the entries of a catalog, so the members of the groups
that have a unit are, taken together, the entries that need a proxy; what is counted over the entries is
what stands in the units. -/
namespace ProxyGen

namespace Catalog
variable {u : Universe} {c : Catalog} {g : Group} {e : Entry}

theorem mem_wrappedMembers_iff (good : c.WellFormed u) (group : g ∈ c.groups) :
    e ∈ c.wrappedMembers g ↔ e ∈ c.entries ∧ e.root = g.key ∧ e.status ≠ .none := by
  rw [Plan.mem_wrappedMembers]
  constructor
  · rintro ⟨⟨key,inside,found⟩,wrapped⟩
    obtain ⟨member,rfl⟩ := entry?_some found
    exact ⟨member,(good.mem_members_iff group member).mp inside,wrapped⟩
  · rintro ⟨member,root,wrapped⟩
    exact ⟨⟨e.key,(good.mem_members_iff group member).mpr root,entry?_of_mem good.distinct member⟩,
      wrapped⟩

theorem mem_wrappedGroups_iff (good : c.WellFormed u) :
    g ∈ c.wrappedGroups ↔
      g ∈ c.groups ∧ ∃ e ∈ c.entries, e.key ∈ g.members ∧ e.status ≠ .none := by
  rw [Plan.mem_wrappedGroups]
  refine and_congr_right fun _ => ?_
  constructor
  · rintro ⟨e,⟨key,inside,found⟩,wrapped⟩
    obtain ⟨member,rfl⟩ := entry?_some found
    exact ⟨e,member,inside,wrapped⟩
  · rintro ⟨e,member,inside,wrapped⟩
    exact ⟨e,⟨e.key,inside,entry?_of_mem good.distinct member⟩,wrapped⟩

theorem wrappedMembers_nodup (good : c.WellFormed u) (founded : c.Founded) (group : g ∈ c.groups) :
    (c.wrappedMembers g).Nodup := by
  have once : g.members.Nodup := by
    have once := founded.once g.key
    simpa [membersOf,group?_of_mem good.groupsDistinct group] using once
  have found : (g.members.filterMap c.entry?).Nodup := by
    apply once.filterMap
    intro key key' e first second
    rw [Option.mem_def] at first second
    exact (entry?_some first).2.symm.trans (entry?_some second).2
  exact (Text.sortBy_perm _ _).nodup_iff.mpr (found.filter _)

theorem wrappedMembers_increasing (good : c.WellFormed u) (founded : c.Founded) (group : g ∈ c.groups) :
    (c.wrappedMembers g).Pairwise fun e e' => e.key < e'.key := by
  have distinct : ((c.wrappedMembers g).map Entry.key).Nodup := by
    refine (wrappedMembers_nodup good founded group).map_on ?_
    intro e inside e' inside' same
    have member := ((mem_wrappedMembers_iff good group).mp inside).1
    have member' := ((mem_wrappedMembers_iff good group).mp inside').1
    exact entry_unique good.distinct member member' same
  exact Text.increasing_sortBy (((Text.sortBy_perm Entry.key _).map Entry.key).nodup_iff.mp distinct)

theorem wrappedGroupKeys_nodup (good : c.WellFormed u) :
    (c.wrappedGroups.map Group.key).Nodup := by
  have kept := good.groupsDistinct.sublist ((List.filter_sublist (l := c.groups)
    (p := fun g => (g.members.filterMap c.entry?).any Entry.needsProxy)).map Group.key)
  exact ((Text.sortBy_perm Group.key _).map Group.key).nodup_iff.mpr kept

/-- The wrapped members of all groups are the wrapped entries, each of them once. -/
theorem wrappedMembers_perm (good : c.WellFormed u) (founded : c.Founded) :
    (c.wrappedGroups.flatMap c.wrappedMembers).Perm (c.entries.filter Entry.needsProxy) := by
  have inGroups {g : Group} (among : g ∈ c.wrappedGroups) : g ∈ c.groups :=
    ((mem_wrappedGroups_iff good).mp among).1
  rw [List.perm_ext_iff_of_nodup]
  · intro e
    rw [List.mem_flatMap,List.mem_filter]
    constructor
    · rintro ⟨g,among,inside⟩
      obtain ⟨member,_,wrapped⟩ := (mem_wrappedMembers_iff good (inGroups among)).mp inside
      exact ⟨member,by simpa [Entry.needsProxy] using wrapped⟩
    · rintro ⟨member,needs⟩
      have wrapped : e.status ≠ .none := by simpa [Entry.needsProxy] using needs
      obtain ⟨g,_,group,named⟩ := good.group_of_mem member
      have inside := (good.mem_members_iff group member).mpr named.symm
      exact ⟨g,(mem_wrappedGroups_iff good).mpr ⟨group,e,member,inside,wrapped⟩,
        (mem_wrappedMembers_iff good group).mpr ⟨member,named.symm,wrapped⟩⟩
  · rw [List.nodup_flatMap]
    refine ⟨fun g among => wrappedMembers_nodup good founded (inGroups among),?_⟩
    refine (List.pairwise_map.mp (wrappedGroupKeys_nodup good)).imp_of_mem ?_
    intro g g' first second other e inside inside'
    have root := ((mem_wrappedMembers_iff good (inGroups first)).mp inside).2.1
    have root' := ((mem_wrappedMembers_iff good (inGroups second)).mp inside').2.1
    exact other (root.symm.trans root')
  · exact (List.Nodup.of_map Entry.key good.distinct).filter _

end Catalog

namespace Plan
variable {p : Plan} {units : List OutputUnit}

/-- Names collide unless each of them is new and occurs once. -/
theorem collision?_eq_none_iff (before names : List (String × String)) :
    collision? before names = none ↔
      (names.map Prod.fst).Nodup ∧ ∀ name ∈ names.map Prod.fst, before.lookup name = none := by
  induction names generalizing before with
  | nil => simp [collision?]
  | cons first rest ih =>
    obtain ⟨name,root⟩ := first
    simp only [collision?]
    cases taken : before.lookup name with
    | some other =>
      dsimp only
      refine iff_of_false (by simp) ?_
      rintro ⟨_,free⟩
      have unused := free name List.mem_cons_self
      rw [taken] at unused
      cases unused
    | none =>
      dsimp only
      rw [ih,List.map_cons,List.nodup_cons,List.forall_mem_cons]
      have later (other : String) : ((name,root) :: before).lookup other = none ↔
          other ≠ name ∧ before.lookup other = none := by
        rw [List.lookup_cons]
        cases same : other == name <;> simp_all
      simp only [later]
      constructor
      · rintro ⟨distinct,free⟩
        exact ⟨⟨fun inside => (free name inside).1 rfl,distinct⟩,taken,
          fun other inside => (free other inside).2⟩
      · rintro ⟨⟨fresh,distinct⟩,_,free⟩
        exact ⟨distinct,fun other inside => ⟨fun same => fresh (same ▸ inside),free other inside⟩⟩

/-- Units are made group by group and sorted, and none of their names is taken twice. -/
theorem units_made (ok : p.units = .ok units) : ∃ made,
    List.Forall₂ (fun g unit => p.unit g = .ok unit) p.catalog.wrappedGroups made ∧
      units = Text.sortBy OutputUnit.fileName made ∧ ((takenNames units).map Prod.fst).Nodup := by
  obtain ⟨made,each,ok⟩ := bind_ok ok
  refine ⟨made,mapM_forall₂ each,?_⟩
  dsimp only at ok
  split at ok
  next => cases ok
  next free =>
    cases ok
    exact ⟨rfl,((collision?_eq_none_iff _ _).mp free).1⟩

theorem names_sublists (units : List OutputUnit) :
    (units.map OutputUnit.fileName).Sublist ((takenNames units).map Prod.fst) ∧
      (units.map OutputUnit.proxyName).Sublist ((takenNames units).map Prod.fst) := by
  induction units with
  | nil => exact ⟨.slnil,.slnil⟩
  | cons unit rest ih =>
    obtain ⟨files,proxies⟩ := ih
    exact ⟨(files.cons unit.proxyName).cons_cons unit.fileName,
      (proxies.cons_cons unit.proxyName).cons unit.fileName⟩

theorem flatMap_variants {groups : List Group} {made : List OutputUnit}
    (each : List.Forall₂ (fun g unit => p.unit g = .ok unit) groups made) :
    made.map OutputUnit.rootKey = groups.map Group.key ∧
      made.flatMap OutputUnit.variants = (groups.flatMap p.catalog.wrappedMembers).map Entry.key := by
  induction each with
  | nil => exact ⟨rfl,rfl⟩
  | cons first _ ih =>
    obtain ⟨root,variants,_⟩ := unit_functions first
    rw [List.map_cons,List.map_cons,List.flatMap_cons,List.flatMap_cons,List.map_append,ih.1,ih.2,root,
      variants]
    exact ⟨rfl,rfl⟩

/-- The units stand for the groups that need one, and the variants in them for what needs a proxy. -/
theorem units_perm (good : p.catalog.WellFormed p.types) (founded : p.catalog.Founded)
    (ok : p.units = .ok units) :
    (units.map OutputUnit.rootKey).Perm (p.catalog.wrappedGroups.map Group.key) ∧
      (units.flatMap OutputUnit.variants).Perm
        ((p.catalog.entries.filter Entry.needsProxy).map Entry.key) := by
  obtain ⟨made,each,rfl,_⟩ := units_made ok
  obtain ⟨roots,variants⟩ := flatMap_variants each
  have perm := Text.sortBy_perm OutputUnit.fileName made
  rw [← roots]
  refine ⟨perm.map _,(perm.flatMap_right _).trans ?_⟩
  rw [variants]
  exact (Catalog.wrappedMembers_perm good founded).map _

/-- A type that needs a proxy stands in the unit of its group, which has the name of its proxy. -/
theorem unit_of_wrapped (good : p.catalog.WellFormed p.types) (ok : p.units = .ok units) {e : Entry}
    (member : e ∈ p.catalog.entries) (wrapped : e.status ≠ .none) :
    ∃ unit ∈ units, unit.rootKey = e.root ∧ e.key ∈ unit.variants ∧ unit.proxyName = p.proxyName e := by
  obtain ⟨g,found,group,named⟩ := good.group_of_mem member
  have inside := (good.mem_members_iff group member).mpr named.symm
  have needed := (Catalog.mem_wrappedGroups_iff good).mpr ⟨group,e,member,inside,wrapped⟩
  obtain ⟨total,image⟩ := mem_units ok
  obtain ⟨unit,made⟩ := total g needed
  obtain ⟨_,variants,_⟩ := unit_functions made
  obtain ⟨_,name,root⟩ := unit_head made
  refine ⟨unit,(image unit).mpr ⟨g,needed,made⟩,root.trans named,?_,?_⟩
  · rw [variants]
    have present := (Catalog.mem_wrappedMembers_iff good group).mpr ⟨member,named.symm,wrapped⟩
    exact List.mem_map_of_mem present
  · rw [name,proxyName,rootType,found]

end Plan

/-- The units share out the types that need a proxy: each group with such a type has one unit, and each such
type stands in one unit, that of its group. -/
structure Catalog.SharedOut (c : Catalog) (units : List OutputUnit) : Prop where
  keys : c.keys.Nodup
  groups : (c.groups.map Group.key).Nodup
  roots : (units.map OutputUnit.rootKey).Nodup
  mem_roots : ∀ root, root ∈ units.map OutputUnit.rootKey ↔ ∃ g ∈ c.groups, g.key = root ∧
    ∃ e ∈ c.entries, e.key ∈ g.members ∧ e.status ≠ .none
  variants : (units.flatMap OutputUnit.variants).Nodup
  mem_variants : ∀ key, key ∈ units.flatMap OutputUnit.variants ↔
    ∃ e ∈ c.entries, e.key = key ∧ e.status ≠ .none
  home : ∀ unit ∈ units, ∀ e ∈ c.entries, e.key ∈ unit.variants → e.root = unit.rootKey
  increasing : ∀ unit ∈ units, unit.variants.Pairwise (· < ·)
  files : (units.map OutputUnit.fileName).Pairwise (· < ·)
  proxies : (units.map OutputUnit.proxyName).Nodup

namespace Plan
variable {p : Plan} {units : List OutputUnit}

theorem sharedOut (good : p.catalog.WellFormed p.types) (founded : p.catalog.Founded)
    (ok : p.units = .ok units) : p.catalog.SharedOut units := by
  obtain ⟨roots,variants⟩ := units_perm good founded ok
  obtain ⟨made,_,sorted,distinct⟩ := units_made ok
  obtain ⟨files,proxies⟩ := names_sublists units
  have ofUnit {unit : OutputUnit} (among : unit ∈ units) : ∃ g ∈ p.catalog.groups,
      unit.rootKey = g.key ∧ unit.variants = (p.catalog.wrappedMembers g).map Entry.key := by
    obtain ⟨g,needed,made⟩ := ((mem_units ok).2 unit).mp among
    obtain ⟨root,variants,_⟩ := unit_functions made
    exact ⟨g,(mem_wrappedGroups.mp needed).1,root,variants⟩
  constructor
  case keys => exact good.distinct
  case groups => exact good.groupsDistinct
  case roots => exact roots.nodup_iff.mpr (Catalog.wrappedGroupKeys_nodup good)
  case mem_roots =>
    intro root
    rw [roots.mem_iff,List.mem_map]
    constructor
    · rintro ⟨g,needed,rfl⟩
      obtain ⟨group,member⟩ := (Catalog.mem_wrappedGroups_iff good).mp needed
      exact ⟨g,group,rfl,member⟩
    · rintro ⟨g,group,rfl,member⟩
      exact ⟨g,(Catalog.mem_wrappedGroups_iff good).mpr ⟨group,member⟩,rfl⟩
  case variants =>
    have kept : (p.catalog.entries.filter Entry.needsProxy).Sublist p.catalog.entries :=
      List.filter_sublist
    exact variants.nodup_iff.mpr (good.distinct.sublist (kept.map Entry.key))
  case mem_variants =>
    intro key
    rw [variants.mem_iff,List.mem_map]
    constructor
    · rintro ⟨e,member,rfl⟩
      obtain ⟨member,needs⟩ := List.mem_filter.mp member
      exact ⟨e,member,rfl,by simpa [Entry.needsProxy] using needs⟩
    · rintro ⟨e,member,rfl,wrapped⟩
      exact ⟨e,List.mem_filter.mpr ⟨member,by simpa [Entry.needsProxy] using wrapped⟩,rfl⟩
  case home =>
    intro unit among e member variant
    obtain ⟨g,group,root,variants⟩ := ofUnit among
    rw [variants] at variant
    obtain ⟨e',inside,same⟩ := List.mem_map.mp variant
    obtain ⟨present,inRoot,_⟩ := (Catalog.mem_wrappedMembers_iff good group).mp inside
    obtain rfl := Catalog.entry_unique good.distinct present member same
    exact inRoot.trans root.symm
  case increasing =>
    intro unit among
    obtain ⟨g,group,_,variants⟩ := ofUnit among
    rw [variants]
    exact List.pairwise_map.mpr (Catalog.wrappedMembers_increasing good founded group)
  case files =>
    have apart := distinct.sublist files
    rw [sorted] at apart ⊢
    have once : (made.map OutputUnit.fileName).Nodup :=
      ((Text.sortBy_perm _ made).map _).nodup_iff.mp apart
    exact List.pairwise_map.mpr (Text.increasing_sortBy once)
  case proxies => exact distinct.sublist proxies

end Plan

namespace Generation

theorem check_ok {α : Type} {task : Task} {r : Except Error α} {a : α} (ok : task.check r = .ok a) :
    r = .ok a := by
  cases r with
  | error e => cases ok
  | ok b =>
    cases ok
    rfl

/-- A generation is an analysis and the units that are planned from it. -/
theorem run_ok {s : Settings} {u : Universe} {here : Option String} {g : Generation} (ok : run s u here = .ok g) :
    ∃ root packages a target, Analysis.run u root packages = .ok a ∧
      Plan.units ⟨a.catalog,u,target⟩ = .ok g.units ∧
        g.summary = summarize s root packages a g.units := by
  obtain ⟨input,_,ok⟩ := bind_ok ok
  obtain ⟨root,_,ok⟩ := bind_ok ok
  obtain ⟨packages,_,ok⟩ := bind_ok ok
  obtain ⟨a,analyzed,ok⟩ := bind_ok ok
  obtain ⟨target,_,ok⟩ := bind_ok ok
  obtain ⟨units,planned,ok⟩ := bind_ok ok
  cases ok
  exact ⟨root,packages,a,target,check_ok analyzed,check_ok planned,rfl⟩

theorem run_of {s : Settings} {u : Universe} {here : Option String} {input : String} {root : TypeExpr}
    {packages : List String} {a : Analysis} {target : Target} {units : List OutputUnit}
    (resolved : u.resolvePackage s.inputPackage = .ok input)
    (located : u.lookupType input s.typeName = .ok root)
    (added : addPackages u [input] s.additionalPackages = .ok packages)
    (analyzed : Analysis.run u root packages = .ok a) (targeted : s.target here = .ok target)
    (planned : Plan.units ⟨a.catalog,u,target⟩ = .ok units) :
    run s u here = .ok ⟨units,summarize s root packages a units⟩ := by
  unfold run
  rw [resolved]
  simp only [Task.check,Except.mapError,bind,Except.bind,located,added,analyzed,targeted,planned]
  rfl

/-- Units share out what needs a proxy, and a summary counts the variants in them. -/
theorem units_sharedOut (u : Universe) :
    (∀ c, Catalog.Grown u c → ∀ target units, Plan.units ⟨c,u,target⟩ = .ok units →
      c.SharedOut units) ∧
      ∀ s here g, run s u here = .ok g → g.summary.wrappedTypes =
        (g.units.map fun unit => unit.variants.length).sum := by
  constructor
  · intro c grown target units planned
    exact Plan.sharedOut (p := ⟨c,u,target⟩) grown.wellFormed grown.founded planned
  · intro s here g ok
    obtain ⟨root,packages,a,target,analyzed,planned,summary⟩ := run_ok ok
    have grown := Catalog.Grown.of_run analyzed
    have variants :=
      (Plan.units_perm (p := ⟨a.catalog,u,target⟩) grown.wellFormed grown.founded planned).2
    have counted : a.catalog.wrapped.length = (a.catalog.entries.filter Entry.needsProxy).length :=
      ((Text.sortBy_perm Entry.key a.catalog.entries).filter Entry.needsProxy).length_eq
    rw [summary,summarize,counted,← List.length_flatMap,variants.length_eq,List.length_map]

end Generation

namespace Hub

def settings : Settings := ⟨"u.json","p","Hub",[],"out",none,"","Transform",false⟩

/-- What is generated once the units are planned. -/
def generated (units : List OutputUnit) : Generation :=
  ⟨units,Generation.summarize settings (.named hub) ["p"] ⟨catalog .hard .soft,6,2⟩ units⟩

theorem run_settings {units : List OutputUnit} (planned : plan.units = .ok units) :
    Generation.run settings types (some "/home") = .ok (generated units) := by
  have input : types.resolvePackage settings.inputPackage = .ok "p" := by decide +kernel
  have root : types.lookupType "p" settings.typeName = .ok (.named hub) := by decide +kernel
  have target : settings.target (some "/home") = .ok plan.target := by decide +kernel
  have analyzed : Analysis.run types (.named hub) ["p"] = .ok ⟨catalog .hard .soft,6,2⟩ := run_types
  have units : Plan.units ⟨catalog .hard .soft,types,plan.target⟩ = .ok units := planned
  exact Generation.run_of input root rfl analyzed target units

theorem wrapped_hub (units : List OutputUnit) : (generated units).summary.wrappedTypes = 4 := by
  show (catalog .hard .soft).wrapped.length = 4
  have sorted : (catalog .hard .soft).sorted =
      [itemsEntry,gateEntry .soft,hubEntry .hard,itemEntry,portEntry,shelfEntry] := by
    apply Text.sortBy_eq
    · decide
    · decide
  rw [Catalog.wrapped,sorted]
  rfl

end Hub

namespace Generation

theorem hub_sharedOut : ∃ units, Catalog.Grown Hub.types Hub.plan.catalog ∧ Hub.plan.units = .ok units ∧
    Hub.plan.catalog.SharedOut units ∧ run Hub.settings Hub.types (some "/home") = .ok (Hub.generated units) ∧
      4 = (units.map fun unit => unit.variants.length).sum := by
  obtain ⟨units,planned⟩ := Hub.plan_units
  obtain ⟨shared,counted⟩ := units_sharedOut Hub.types
  have grown : Catalog.Grown Hub.types Hub.plan.catalog := .of_run Hub.run_types
  have generated := Hub.run_settings planned
  have four : (Hub.generated units).summary.wrappedTypes = 4 := Hub.wrapped_hub units
  exact ⟨units,grown,planned,shared _ grown _ units planned,generated,
    four.symm.trans (counted Hub.settings _ _ generated)⟩

end Generation
end ProxyGen
