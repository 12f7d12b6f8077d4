import ProxyGen.Proofs.Units

/-! The identifiers that generated units declare. Names are kept apart for proxies, while a constructor is
named by a proxy with a suffix behind it; so two constructors have one name when the proxy of the one is
named like that of the other with a mark that the suffix of the other begins with. -/
namespace ProxyGen

theorem TypeExpr.root_root (t : TypeExpr) : t.root.root = t.root := by
  induction t with
  | pointer t ih => exact ih
  | _ => rfl

/-- A type is its root under its references. -/
theorem TypeExpr.eq_of_root {t t' : TypeExpr} (roots : t.root = t'.root)
    (layers : t.references = t'.references) : t = t' := by
  induction t generalizing t' with
  | pointer t ih =>
    cases t' with
    | pointer t' =>
      have below : t.root = t'.root := roots
      rw [ih below (Nat.succ.inj layers)]
    | _ => cases layers
  | _ =>
    cases t' with
    | pointer t' => cases layers
    | _ => exact roots

theorem Universe.shape_root {u : Universe} {t : TypeExpr} {s : Shape} (known : u.shape t = .ok s) :
    ∃ s', u.shape t.root = .ok s' ∧ s.kind = s'.kind ∧ s.depth = s'.depth + t.references := by
  induction t generalizing s with
  | pointer t ih =>
    unfold shape at known
    rw [shapeFrom] at known
    split at known
    next => cases known
    next s₁ below =>
      cases known
      obtain ⟨s',root,kind,depth⟩ := ih below
      exact ⟨s',root,kind,congrArg Nat.succ depth⟩
  | _ => exact ⟨s,known,rfl,rfl⟩

theorem Descriptor.shape_of_ofType {u : Universe} {t : TypeExpr} {d : Descriptor}
    (known : ofType u t = .ok d) : u.shape t = .ok ⟨d.kind,d.depth⟩ := by
  unfold ofType at known
  split at known
  next => cases known
  next s found =>
    cases known
    exact found

namespace Text

theorem exists_between_iff {a b s t : String} :
    (∃ m : List Char, b.toList = a.toList ++ m ∧ s.toList = m ++ t.toList) ↔
      ∃ m, b = a ++ m ∧ s = m ++ t := by
  constructor
  · rintro ⟨m,first,second⟩
    refine ⟨String.ofList m,String.toList_injective ?_,String.toList_injective ?_⟩
    · simp [first]
    · simp [second]
  · rintro ⟨m,rfl,rfl⟩
    exact ⟨m.toList,String.toList_append,String.toList_append⟩

/-- Of two equal texts that are put together from two parts each, one has the longer first part. -/
theorem append_eq_append_iff {a b s t : String} : a ++ s = b ++ t ↔
    (∃ m, b = a ++ m ∧ s = m ++ t) ∨ ∃ m, a = b ++ m ∧ t = m ++ s := by
  rw [← String.toList_inj,String.toList_append,String.toList_append,List.append_eq_append_iff,
    exists_between_iff,exists_between_iff]

end Text

namespace Naming

def marks (n : Nat) : String := String.join (List.replicate n "Ptr")

theorem marks_add (m n : Nat) : marks (m + n) = marks m ++ marks n := by
  rw [marks,List.replicate_add,String.join_append,marks,marks]

theorem length_marks (n : Nat) : (marks n).length = 3 * n := by
  induction n with
  | zero => rfl
  | succ n ih =>
    rw [marks_add,String.length_append,ih]
    rfl

theorem marks_injective {m n : Nat} (same : marks m = marks n) : m = n := by
  have lengths := congrArg String.length same
  rw [length_marks,length_marks] at lengths
  omega

theorem suffix_cases (kind : Kind) (depth : Nat) :
    variantSuffix kind depth = "Value" ∨ ∃ n, variantSuffix kind depth = marks n := by
  cases kind <;> cases depth <;> first
    | exact .inl rfl
    | exact .inr ⟨_,rfl⟩

/-- No text ends both in a mark and in `Value`. -/
theorem ends_apart (a b : String) : a ++ "Ptr" ≠ b ++ "Value" := by
  intro same
  have letters := congrArg String.toList same
  have split : (b ++ "Value").toList = (b.toList ++ "Va".toList) ++ "lue".toList := by
    rw [String.toList_append,List.append_assoc]
    rfl
  rw [String.toList_append,split] at letters
  exact absurd (List.append_inj' letters rfl).2 (by decide)

theorem marks_ne_value (n : Nat) (a : String) : marks n ≠ a ++ "Value" := by
  intro same
  cases n with
  | zero =>
    have lengths := congrArg String.length same
    rw [String.length_append,length_marks] at lengths
    have five : "Value".length = 5 := rfl
    omega
  | succ n =>
    rw [marks_add] at same
    exact ends_apart _ _ same

/-- What stands before a suffix in another one. -/
theorem mark_cases {kind kind' : Kind} {depth depth' : Nat} {mark : String}
    (split : variantSuffix kind depth = mark ++ variantSuffix kind' depth') :
    mark = "Value" ∨ ∃ n, mark = marks n := by
  rcases suffix_cases kind depth with value | ⟨n,first⟩ <;>
    rcases suffix_cases kind' depth' with value' | ⟨n',second⟩
  · rw [value,value'] at split
    have empty : "" ++ "Value" = mark ++ "Value" := split
    exact .inr ⟨0,((String.append_left_inj "Value").mp empty).symm⟩
  · rw [value,second] at split
    cases n' with
    | zero =>
      rw [split]
      exact .inl (String.append_empty).symm
    | succ n' =>
      rw [marks_add,← String.append_assoc] at split
      exact absurd split.symm (ends_apart _ "")
  · rw [first,value'] at split
    exact absurd split (marks_ne_value n mark)
  · rw [first,second] at split
    have lengths := congrArg String.length split
    rw [String.length_append,length_marks,length_marks] at lengths
    obtain ⟨k,rfl⟩ : ∃ k, n = k + n' := ⟨n - n',by omega⟩
    rw [marks_add] at split
    exact .inr ⟨k,((String.append_left_inj _).mp split).symm⟩

theorem suffix_injective {kind : Kind} {depth depth' : Nat}
    (same : variantSuffix kind depth = variantSuffix kind depth') : depth = depth' := by
  have apart (n : Nat) : marks n ≠ "Value" := marks_ne_value n ""
  cases kind with
  | interface => exact marks_injective same
  | _ =>
    cases depth <;> cases depth'
    · rfl
    · exact absurd same.symm (apart _)
    · exact absurd same (apart _)
    · exact congrArg Nat.succ (marks_injective same)

end Naming

open Code

/-- What a declaration adds to the names of its package; methods belong to their receivers. -/
def Code.Decl.identifier? : Decl → Option String
  | .struct name _ => some name
  | .func f => if f.receiver.isNone then some f.name else none

def OutputUnit.identifiers (unit : OutputUnit) : List String :=
  unit.file.decls.filterMap Decl.identifier?

/-- Types whose roots have equal keys have equal roots. -/
def Catalog.Keyed (c : Catalog) : Prop :=
  ∀ e ∈ c.entries, ∀ e' ∈ c.entries, e.root = e'.root → e.descriptor.type.root = e'.descriptor.type.root

def Catalog.Wraps (c : Catalog) (e : Entry) : Prop := e ∈ c.entries ∧ e.status ≠ .none

namespace Plan
variable {p : Plan} {units : List OutputUnit}

def constructorName (p : Plan) (e : Entry) : String := Naming.constructorName p.types e.descriptor

/-- With a mark, the name that the constructor of `e` is made of is that of `e'`, and the suffix of the one is
the suffix of the other with the same mark before it. -/
structure Meets (p : Plan) (e e' : Entry) (mark : String) : Prop where
  name : Naming.proxyName p.types e'.descriptor.type =
    Naming.proxyName p.types e.descriptor.type ++ mark
  suffix : Naming.variantSuffix e.descriptor.kind e.descriptor.depth =
    mark ++ Naming.variantSuffix e'.descriptor.kind e'.descriptor.depth

/-- No constructor has the name of a proxy, and no two constructors meet. -/
structure Apart (p : Plan) : Prop where
  proxies : ∀ e e', p.catalog.Wraps e → p.catalog.Wraps e' → p.proxyName e ≠ p.constructorName e'
  constructors : ∀ e e', p.catalog.Wraps e → p.catalog.Wraps e' →
    ∀ mark, (mark = "Value" ∨ ∃ n, mark = Naming.marks n) → p.Meets e e' mark → e = e'

theorem constructorName_eq_iff {e e' : Entry} : p.constructorName e = p.constructorName e' ↔
    (∃ mark, p.Meets e e' mark) ∨ ∃ mark, p.Meets e' e mark := by
  unfold constructorName Naming.constructorName
  rw [String.append_assoc,String.append_assoc,String.append_right_inj,Text.append_eq_append_iff]
  refine or_congr (exists_congr fun mark => ?_) (exists_congr fun mark => ?_)
  all_goals exact ⟨fun same => ⟨same.1,same.2⟩,fun meets => ⟨meets.name,meets.suffix⟩⟩

theorem identifiers_variantDecls {proxy : String} {e : Entry} {decls : List Decl}
    (ok : p.variantDecls proxy e = .ok decls) :
    decls.filterMap Decl.identifier? = [p.constructorName e] := by
  obtain ⟨methods,forwarded,ok⟩ := bind_ok ok
  cases ok
  have hidden : (methods.map Decl.func).filterMap Decl.identifier? = [] := by
    rw [List.filterMap_eq_nil_iff]
    intro d member
    obtain ⟨f,among,rfl⟩ := List.mem_map.mp member
    obtain ⟨m,_,forwards⟩ := ((mapM_ok forwarded).2 f).mp among
    simp [Decl.identifier?,(forward_head forwards).1]
  rw [List.filterMap_cons,hidden]
  rfl

theorem identifiers_unit {g : Group} {unit : OutputUnit} (ok : p.unit g = .ok unit) :
    unit.identifiers = unit.proxyName :: (p.catalog.wrappedMembers g).map p.constructorName := by
  obtain ⟨decls,made,ok⟩ := bind_ok ok
  cases ok
  have constructors {members : List Entry} {decls : List (List Decl)} {proxy : String}
      (each : List.Forall₂ (fun e ds => p.variantDecls proxy e = .ok ds) members decls) :
      decls.flatten.filterMap Decl.identifier? = members.map p.constructorName := by
    induction each with
    | nil => rfl
    | cons first _ ih =>
      rw [List.flatten_cons,List.filterMap_append,ih,identifiers_variantDecls first]
      rfl
  exact congrArg (List.cons _) (constructors (mapM_forall₂ made))

/-- All that is declared are the proxies of the units and the constructors of their variants. -/
theorem identifiers_perm (good : p.catalog.WellFormed p.types) (founded : p.catalog.Founded)
    (ok : p.units = .ok units) : (units.flatMap OutputUnit.identifiers).Perm
      (units.map OutputUnit.proxyName ++
        (p.catalog.entries.filter Entry.needsProxy).map p.constructorName) := by
  have collected {groups : List Group} {made : List OutputUnit}
      (each : List.Forall₂ (fun g unit => p.unit g = .ok unit) groups made) :
      (made.flatMap OutputUnit.identifiers).Perm (made.map OutputUnit.proxyName ++
        (groups.flatMap p.catalog.wrappedMembers).map p.constructorName) := by
    induction each with
    | nil => exact .refl _
    | cons first _ ih =>
      rw [List.flatMap_cons,identifiers_unit first,List.map_cons,List.flatMap_cons,List.map_append]
      exact ((ih.append_left _).trans (List.perm_append_comm_assoc _ _ _)).cons _
  obtain ⟨made,each,rfl,_⟩ := units_made ok
  have sorted := Text.sortBy_perm OutputUnit.fileName made
  refine (sorted.flatMap_right _).trans ((collected each).trans ?_)
  exact (sorted.symm.map _).append ((Catalog.wrappedMembers_perm good founded).map _)

theorem mem_proxies (good : p.catalog.WellFormed p.types) (ok : p.units = .ok units) {name : String} :
    name ∈ units.map OutputUnit.proxyName ↔ ∃ e, p.catalog.Wraps e ∧ p.proxyName e = name := by
  rw [List.mem_map]
  constructor
  · rintro ⟨unit,among,rfl⟩
    obtain ⟨g,needed,made⟩ := ((mem_units ok).2 unit).mp among
    obtain ⟨group,e,member,inside,wrapped⟩ := (Catalog.mem_wrappedGroups_iff good).mp needed
    have root := (good.mem_members_iff group member).mp inside
    have found := Catalog.group?_of_mem good.groupsDistinct group
    refine ⟨e,⟨member,wrapped⟩,?_⟩
    rw [(unit_head made).2.1,proxyName,rootType,root,found]
  · rintro ⟨e,⟨member,wrapped⟩,rfl⟩
    obtain ⟨unit,among,_,_,name⟩ := unit_of_wrapped good ok member wrapped
    exact ⟨unit,among,name⟩

theorem mem_filter_wraps {e : Entry} :
    e ∈ p.catalog.entries.filter Entry.needsProxy ↔ p.catalog.Wraps e := by
  rw [List.mem_filter,Catalog.Wraps]
  simp [Entry.needsProxy]

theorem nodup_iff (good : p.catalog.WellFormed p.types) (founded : p.catalog.Founded)
    (ok : p.units = .ok units) : (units.flatMap OutputUnit.identifiers).Nodup ↔
      (∀ e e', p.catalog.Wraps e → p.catalog.Wraps e' → p.proxyName e ≠ p.constructorName e') ∧
        ∀ e e', p.catalog.Wraps e → p.catalog.Wraps e' → p.constructorName e = p.constructorName e' →
          e = e' := by
  have once : (p.catalog.entries.filter Entry.needsProxy).Nodup :=
    (List.Nodup.of_map Entry.key good.distinct).filter _
  rw [(identifiers_perm good founded ok).nodup_iff,List.nodup_append,List.nodup_map_iff_inj_on once]
  have proxies := (sharedOut good founded ok).proxies
  constructor
  · rintro ⟨_,constructors,apart⟩
    constructor
    · intro e e' wraps wraps'
      exact apart _ ((mem_proxies good ok).mpr ⟨e,wraps,rfl⟩) _
        (List.mem_map_of_mem (mem_filter_wraps.mpr wraps'))
    · intro e e' wraps wraps'
      exact constructors e (mem_filter_wraps.mpr wraps) e' (mem_filter_wraps.mpr wraps')
  · rintro ⟨apart,constructors⟩
    refine ⟨proxies,?_,?_⟩
    · intro e inside e' inside'
      exact constructors e e' (mem_filter_wraps.mp inside) (mem_filter_wraps.mp inside')
    · intro name proxy name' constructor
      obtain ⟨e,wraps,rfl⟩ := (mem_proxies good ok).mp proxy
      obtain ⟨e',inside,rfl⟩ := List.mem_map.mp constructor
      exact apart e e' wraps (mem_filter_wraps.mp inside)

theorem nodup_iff_apart (good : p.catalog.WellFormed p.types) (founded : p.catalog.Founded)
    (ok : p.units = .ok units) : (units.flatMap OutputUnit.identifiers).Nodup ↔ p.Apart := by
  rw [nodup_iff good founded ok]
  constructor
  · rintro ⟨proxies,constructors⟩
    refine ⟨proxies,?_⟩
    intro e e' wraps wraps' mark _ meets
    exact constructors e e' wraps wraps' (constructorName_eq_iff.mpr (.inl ⟨mark,meets⟩))
  · rintro ⟨proxies,constructors⟩
    refine ⟨proxies,?_⟩
    intro e e' wraps wraps' same
    rcases constructorName_eq_iff.mp same with ⟨mark,meets⟩ | ⟨mark,meets⟩
    · exact constructors e e' wraps wraps' mark (Naming.mark_cases meets.suffix) meets
    · exact (constructors e' e wraps' wraps mark (Naming.mark_cases meets.suffix) meets).symm

section Keyed
variable {e e' : Entry}

theorem rootType_of_keyed (good : p.catalog.WellFormed p.types) (founded : p.catalog.Founded)
    (keyed : p.catalog.Keyed) (member : e ∈ p.catalog.entries) :
    p.rootType e = e.descriptor.type.root := by
  obtain ⟨g,found,group,named⟩ := good.group_of_mem member
  obtain ⟨x,present,root,type⟩ := founded.described g group
  rw [rootType,found]
  exact type.trans (keyed x present e member (root.trans named))

theorem proxyName_of_keyed (good : p.catalog.WellFormed p.types) (founded : p.catalog.Founded)
    (keyed : p.catalog.Keyed) (member : e ∈ p.catalog.entries) :
    p.proxyName e = Naming.proxyName p.types e.descriptor.type := by
  rw [proxyName,rootType_of_keyed good founded keyed member,Naming.proxyName,TypeExpr.root_root]
  rfl

/-- Variants of one root that have the same suffix are the same. -/
theorem eq_of_suffix (good : p.catalog.WellFormed p.types) (member : e ∈ p.catalog.entries)
    (member' : e' ∈ p.catalog.entries) (roots : e.descriptor.type.root = e'.descriptor.type.root)
    (suffix : Naming.variantSuffix e.descriptor.kind e.descriptor.depth =
      Naming.variantSuffix e'.descriptor.kind e'.descriptor.depth) : e = e' := by
  have shaped {e : Entry} (member : e ∈ p.catalog.entries) : ∃ s,
      p.types.shape e.descriptor.type.root = .ok s ∧ e.descriptor.kind = s.kind ∧
        e.descriptor.depth = s.depth + e.descriptor.type.references :=
    Universe.shape_root (Descriptor.shape_of_ofType (good.described e member).1)
  obtain ⟨s,known,kind,depth⟩ := shaped member
  obtain ⟨s',known',kind',depth'⟩ := shaped member'
  obtain rfl : s = s' := by
    rw [roots,known'] at known
    exact (Except.ok.inj known).symm
  rw [kind,kind'] at suffix
  have depths := Naming.suffix_injective suffix
  rw [depth,depth'] at depths
  have type := TypeExpr.eq_of_root roots (Nat.add_left_cancel depths)
  have key := (Catalog.ofType_key (good.described e member).1).1
  have key' := (Catalog.ofType_key (good.described e' member').1).1
  refine Catalog.entry_unique good.distinct member member' ?_
  rw [Entry.key,Entry.key,key,key',type]

/-- Constructors of one name, made of the same parts, are those of one entry: a proxy stands for the
types of one root. -/
theorem eq_of_meets (good : p.catalog.WellFormed p.types) (founded : p.catalog.Founded)
    (keyed : p.catalog.Keyed) (ok : p.units = .ok units) (wraps : p.catalog.Wraps e)
    (wraps' : p.catalog.Wraps e') (meets : p.Meets e e' "") : e = e' := by
  obtain ⟨unit,among,root,_,name⟩ := unit_of_wrapped good ok wraps.1 wraps.2
  obtain ⟨unit',among',root',_,name'⟩ := unit_of_wrapped good ok wraps'.1 wraps'.2
  have same : unit.proxyName = unit'.proxyName := by
    rw [name,name',proxyName_of_keyed good founded keyed wraps.1,
      proxyName_of_keyed good founded keyed wraps'.1,meets.name,String.append_empty]
  obtain rfl := List.inj_on_of_nodup_map (sharedOut good founded ok).proxies among among' same
  have roots := keyed e wraps.1 e' wraps'.1 (root.symm.trans root')
  refine eq_of_suffix good wraps.1 wraps'.1 roots ?_
  rw [meets.suffix,String.empty_append]

end Keyed

/-- The identifiers are distinct when no constructor has the name of a proxy and no two constructors meet,
and only then. Where types are told apart by their keys, constructors meet with a mark or not at all. -/
theorem identifiers_nodup_iff {u : Universe} {c : Catalog} {target : Target} (grown : Catalog.Grown u c)
    (ok : Plan.units ⟨c,u,target⟩ = .ok units) :
    ((units.flatMap OutputUnit.identifiers).Nodup ↔ Apart ⟨c,u,target⟩) ∧
      (c.Keyed → ∀ e e', c.Wraps e → c.Wraps e' → Meets ⟨c,u,target⟩ e e' "" → e = e') := by
  constructor
  · exact nodup_iff_apart (p := ⟨c,u,target⟩) grown.wellFormed grown.founded ok
  · intro keyed e e' wraps wraps' meets
    exact eq_of_meets (p := ⟨c,u,target⟩) grown.wellFormed grown.founded keyed ok wraps wraps' meets

end Plan

namespace Sample

theorem keyed_catalog : (catalog .hard).Keyed := by
  unfold Catalog.Keyed
  decide

theorem wraps_plan {e : Entry} (wraps : plan.catalog.Wraps e) :
    e = serverRefEntry .hard ∨ e = connEntry .hard := by
  obtain ⟨member,wrapped⟩ := wraps
  simp only [plan,catalog,List.mem_cons,List.not_mem_nil,or_false] at member
  rcases member with rfl | rfl | rfl | rfl
  · exact .inl rfl
  · exact absurd rfl wrapped
  · exact .inr rfl
  · exact absurd rfl wrapped

theorem proxyNames_plan : plan.proxyName (serverRefEntry .hard) = "PS" ∧
    plan.proxyName (connEntry .hard) = "PC" := by
  decide +kernel

theorem constructorNames_plan : plan.constructorName (serverRefEntry .hard) = "WrapPS" ∧
    plan.constructorName (connEntry .hard) = "WrapPCValue" := by
  decide +kernel

theorem apart_plan : plan.Apart where
  proxies := by
    intro e e' wraps wraps'
    obtain ⟨server,conn⟩ := proxyNames_plan
    obtain ⟨server',conn'⟩ := constructorNames_plan
    rcases wraps_plan wraps with rfl | rfl <;> rcases wraps_plan wraps' with rfl | rfl
    all_goals
      simp only [server,conn,server',conn']
      decide
  constructors := by
    have unlike (mark : String) : "PC" ≠ "PS" ++ mark ∧ "PS" ≠ "PC" ++ mark := by
      constructor <;> intro same <;> simpa using congrArg String.toList same
    intro e e' wraps wraps' mark _ meets
    have name := meets.name
    rcases wraps_plan wraps with rfl | rfl <;> rcases wraps_plan wraps' with rfl | rfl
    · rfl
    · exact absurd name (unlike mark).1
    · exact absurd name (unlike mark).2
    · rfl

end Sample

namespace Plan

theorem sample_identifiers : ∃ units, Catalog.Grown Sample.types (Sample.catalog .hard) ∧
    Sample.plan.units = .ok units ∧ (units.flatMap OutputUnit.identifiers).Nodup ∧
      ∀ e e', (Sample.catalog .hard).Wraps e → (Sample.catalog .hard).Wraps e' →
        Sample.plan.Meets e e' "" → e = e' := by
  obtain ⟨units,planned⟩ := Sample.plan_units
  have grown : Catalog.Grown Sample.types (Sample.catalog .hard) := .of_run Sample.run_types
  obtain ⟨distinct,unmarked⟩ := identifiers_nodup_iff grown planned
  exact ⟨units,grown,planned,distinct.mpr Sample.apart_plan,unmarked Sample.keyed_catalog⟩

end Plan

namespace Twin
open Sample (returning close)

def conn : NamedType := ⟨"p","C"⟩

def value : NamedType := ⟨"p","CValue"⟩

def openValue : Signature := returning [.named value,.error]

/-- A struct whose method returns an interface, which has the name of the struct with `Value` behind it. -/
def types : Universe := ⟨[⟨"p","p",[
  ⟨"C",.struct,.struct,[],[⟨"Open",false,none,openValue⟩]⟩,
  ⟨"CValue",.interface,.interface,[],[⟨"Close",false,none,close⟩]⟩]⟩]⟩

def connRefEntry : Entry := ⟨⟨"*p.C",.struct,1,.pointer (.named conn)⟩,"p.C",.hard,
  [⟨"Open",none,openValue,true⟩]⟩

def connEntry : Entry := ⟨⟨"p.C",.struct,0,.named conn⟩,"p.C",.hard,[⟨"Open",none,openValue,false⟩]⟩

def valueEntry : Entry := ⟨⟨"p.CValue",.interface,0,.named value⟩,"p.CValue",.soft,
  [⟨"Close",none,close,false⟩]⟩

def connGroup : Group := ⟨⟨"p.C",.struct,0,.named conn⟩,[("Open",⟨"p.C",true⟩)],["*p.C","p.C"]⟩

def valueGroup : Group :=
  ⟨⟨"p.CValue",.interface,0,.named value⟩,[("Close",⟨"p.CValue",true⟩)],["p.CValue"]⟩

/-- What is found. Each of the three has an error result of its own. -/
def catalog : Catalog where
  entries := [connRefEntry,connEntry,valueEntry]
  groups := [connGroup,valueGroup]
  edges := [("p.CValue","p.C"),("p.CValue","*p.C")]

theorem underlyings : types.underlying conn = .ok .struct ∧ types.underlying value = .ok .interface := by
  refine ⟨?_,?_⟩ <;> cbv

theorem methods : types.methodSet (.named conn) = .ok [⟨"Open",none,openValue,false⟩] ∧
    types.methodSet (.pointer (.named conn)) = .ok [⟨"Open",none,openValue,true⟩] ∧
    types.methodSet (.named value) = .ok [⟨"Close",none,close,false⟩] := by
  refine ⟨?_,?_,?_⟩ <;> cbv

theorem exported : isExported "Open" = true ∧ isExported "Close" = true := by decide +kernel

open Evaluation in
theorem walk_types : Analysis.walk types (.named conn) [] =
    .ok ⟨catalog,[],["p.CValue","p.C","*p.C"]⟩ := by
  have paths : conn.path = "p" ∧ value.path = "p" := ⟨rfl,rfl⟩
  have keys : conn.key = "p.C" ∧ value.key = "p.CValue" := by decide +kernel
  simp [paths,keys,underlyings,methods,exported,openValue,close,returning]
  rfl

theorem run_types : Analysis.run types (.named conn) [] = .ok ⟨catalog,3,0⟩ := by
  apply Analysis.run_of_walk walk_types
  cbv

def plan : Plan := ⟨catalog,types,⟨"out","","Transform"⟩⟩

theorem wrappedGroups_plan : plan.catalog.wrappedGroups = [connGroup,valueGroup] := by
  apply Text.sortBy_eq
  · decide
  · decide

theorem fileNames : Naming.fileName types (.named conn) = "p_c.go" ∧
    Naming.fileName types (.named value) = "p_cvalue.go" := by
  decide +kernel

theorem proxyNames : Naming.proxyName types (.named conn) = "PC" ∧
    Naming.proxyName types (.named value) = "PCValue" := by
  decide +kernel

theorem plan_units : ∃ units, plan.units = .ok units := by
  apply Plan.units_total plan (by decide)
  · rw [wrappedGroups_plan]
    simp only [plan,connGroup,valueGroup,List.map,fileNames]
    decide
  · rw [wrappedGroups_plan]
    simp [Plan.names,plan,connGroup,valueGroup,Group.key,fileNames,proxyNames,Plan.collision?,
      List.lookup_cons]

end Twin

namespace Plan

/-- The struct and the interface both have the constructor `WrapPCValue`, and the units are made. -/
theorem twin_repeated : ∃ units, Analysis.run Twin.types (.named Twin.conn) [] = .ok ⟨Twin.catalog,3,0⟩ ∧
    Twin.plan.units = .ok units ∧ ¬ (units.flatMap OutputUnit.identifiers).Nodup := by
  obtain ⟨units,planned⟩ := Twin.plan_units
  have grown : Catalog.Grown Twin.types Twin.plan.catalog := .of_run Twin.run_types
  refine ⟨units,Twin.run_types,planned,?_⟩
  intro distinct
  have same : Twin.plan.constructorName Twin.connEntry = Twin.plan.constructorName Twin.valueEntry := by
    decide +kernel
  have constructors := ((nodup_iff grown.wellFormed grown.founded planned).mp distinct).2
  have one := constructors Twin.connEntry Twin.valueEntry ⟨by simp [Twin.plan,Twin.catalog],by decide⟩
    ⟨by simp [Twin.plan,Twin.catalog],by decide⟩ same
  exact absurd one (by decide)

end Plan
end ProxyGen
