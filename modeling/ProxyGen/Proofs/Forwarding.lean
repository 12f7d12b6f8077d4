import ProxyGen.Proofs.Completeness
import ProxyGen.Proxy.Unit

/-! Which methods a generated file forwards. A claimed name has its method with the constructor of its
owner, so it is there exactly when the owner needs a proxy of its own. -/
namespace ProxyGen

theorem bind_ok {ε α β : Type} {x : Except ε α} {f : α → Except ε β} {b : β}
    (ok : (x >>= f) = .ok b) : ∃ a, x = .ok a ∧ f a = .ok b := by
  cases x with
  | error e => cases ok
  | ok a => exact ⟨a,rfl,ok⟩

/-- Each element has its result, and there are no other results. -/
theorem mapM_ok {ε α β : Type} {f : α → Except ε β} {l : List α} {results : List β}
    (ok : l.mapM f = .ok results) :
    (∀ x ∈ l, ∃ y, f x = .ok y) ∧ ∀ y, y ∈ results ↔ ∃ x ∈ l, f x = .ok y := by
  induction l generalizing results with
  | nil =>
    cases ok
    exact ⟨by simp,by simp⟩
  | cons x rest ih =>
    rw [List.mapM_cons] at ok
    obtain ⟨y,first,ok⟩ := bind_ok ok
    obtain ⟨ys,others,ok⟩ := bind_ok ok
    cases ok
    obtain ⟨total,image⟩ := ih others
    constructor
    · intro x' member
      rcases List.mem_cons.mp member with rfl | member
      · exact ⟨y,first⟩
      · exact total x' member
    · intro y'
      rw [List.mem_cons,image]
      constructor
      · rintro (rfl | ⟨x',member,equal⟩)
        · exact ⟨x,List.mem_cons_self,first⟩
        · exact ⟨x',List.mem_cons_of_mem _ member,equal⟩
      · rintro ⟨x',member,equal⟩
        rcases List.mem_cons.mp member with rfl | member
        · rw [first] at equal
          cases equal
          exact .inl rfl
        · exact .inr ⟨x',member,equal⟩

theorem mapM_forall₂ {ε α β : Type} {f : α → Except ε β} {l : List α} {results : List β}
    (ok : l.mapM f = .ok results) : List.Forall₂ (fun x y => f x = .ok y) l results := by
  induction l generalizing results with
  | nil =>
    cases ok
    exact .nil
  | cons x rest ih =>
    rw [List.mapM_cons] at ok
    obtain ⟨y,first,ok⟩ := bind_ok ok
    obtain ⟨ys,others,ok⟩ := bind_ok ok
    cases ok
    exact .cons first (ih others)

theorem mapM_of_forall₂ {ε α β : Type} {f : α → Except ε β} {l : List α} {results : List β}
    (each : List.Forall₂ (fun x y => f x = .ok y) l results) : l.mapM f = .ok results := by
  induction each with
  | nil => rfl
  | cons first _ ih =>
    rw [List.mapM_cons,first,ih]
    rfl

theorem mapM_total {ε α β : Type} {f : α → Except ε β} {l : List α}
    (total : ∀ x ∈ l, ∃ y, f x = .ok y) : ∃ results, l.mapM f = .ok results := by
  induction l with
  | nil => exact ⟨[],rfl⟩
  | cons x rest ih =>
    obtain ⟨y,first⟩ := total x List.mem_cons_self
    obtain ⟨ys,others⟩ := ih fun x' member => total x' (List.mem_cons_of_mem _ member)
    refine ⟨y :: ys,?_⟩
    rw [List.mapM_cons,first,others]
    rfl

def OutputUnit.Forwards (unit : OutputUnit) (name : String) : Prop :=
  ∃ f, Code.Decl.func f ∈ unit.file.decls ∧ f.receiver ≠ none ∧ f.name = name

namespace Plan
variable {p : Plan}

theorem forward_head {e : Entry} {proxy : String} {m : Selection} {f : Code.FuncDecl}
    (ok : p.forward e proxy m = .ok f) : f.receiver ≠ none ∧ f.name = m.name := by
  obtain ⟨args,_,ok⟩ := bind_ok ok
  cases ok
  exact ⟨by simp,rfl⟩

theorem arguments_total (p : Plan) (e : Entry) {m : Selection} (fixed : m.signature.variadic = false)
    (params : List Param) (index : Nat) : ∃ args, p.arguments e m index params = .ok args := by
  induction params generalizing index with
  | nil => exact ⟨[],rfl⟩
  | cons param rest ih =>
    obtain ⟨args,others⟩ := ih (index + 1)
    refine ⟨p.argument (Naming.paramName param.name index) param.type :: args,?_⟩
    rw [arguments,fixed,others]
    rfl

/-- Only a variadic method can be one that cannot be forwarded. -/
theorem forward_total (p : Plan) (e : Entry) (proxy : String) {m : Selection}
    (fixed : m.signature.variadic = false) : ∃ f, p.forward e proxy m = .ok f := by
  obtain ⟨args,ok⟩ := arguments_total p e fixed m.signature.params 0
  unfold forward
  rw [ok]
  exact ⟨_,rfl⟩

/-- A variant has its constructor and the methods that it still owns. -/
theorem variantDecls_spec {proxy : String} {e : Entry} {decls : List Code.Decl}
    (ok : p.variantDecls proxy e = .ok decls) :
    (∀ m ∈ p.ownedMethods e, ∃ f, p.forward e proxy m = .ok f) ∧
      ∀ f, Code.Decl.func f ∈ decls ↔
        f = p.constructor e proxy ∨ ∃ m ∈ p.ownedMethods e, p.forward e proxy m = .ok f := by
  obtain ⟨methods,forwarded,ok⟩ := bind_ok ok
  obtain ⟨total,image⟩ := mapM_ok forwarded
  cases ok
  refine ⟨total,fun f => ?_⟩
  rw [← image f,List.mem_cons,Code.Decl.func.injEq]
  simp

theorem mem_wrappedMembers {c : Catalog} {g : Group} {e : Entry} :
    e ∈ c.wrappedMembers g ↔ (∃ key ∈ g.members, c.entry? key = some e) ∧ e.status ≠ .none := by
  unfold Catalog.wrappedMembers
  rw [Text.mem_sortBy,List.mem_filter,List.mem_filterMap]
  simp [Entry.needsProxy]

theorem mem_wrappedGroups {c : Catalog} {g : Group} :
    g ∈ c.wrappedGroups ↔ g ∈ c.groups ∧
      ∃ e, (∃ key ∈ g.members, c.entry? key = some e) ∧ e.status ≠ .none := by
  unfold Catalog.wrappedGroups
  rw [Text.mem_sortBy,List.mem_filter,List.any_eq_true]
  simp [Entry.needsProxy]

/-- The functions of a file are those of the members that need a proxy. -/
theorem unit_functions {g : Group} {unit : OutputUnit} (ok : p.unit g = .ok unit) :
    unit.rootKey = g.key ∧ unit.variants = (p.catalog.wrappedMembers g).map Entry.key ∧
      (∀ e ∈ p.catalog.wrappedMembers g, ∀ m ∈ p.ownedMethods e,
        ∃ f, p.forward e unit.proxyName m = .ok f) ∧
      ∀ f, Code.Decl.func f ∈ unit.file.decls ↔ ∃ e ∈ p.catalog.wrappedMembers g,
        f = p.constructor e unit.proxyName ∨
          ∃ m ∈ p.ownedMethods e, p.forward e unit.proxyName m = .ok f := by
  obtain ⟨decls,made,ok⟩ := bind_ok ok
  obtain ⟨total,image⟩ := mapM_ok made
  cases ok
  refine ⟨rfl,rfl,?_,?_⟩
  · intro e wrapped
    obtain ⟨ds,equal⟩ := total e wrapped
    exact (variantDecls_spec equal).1
  · intro f
    constructor
    · intro member
      rcases List.mem_cons.mp member with isStruct | member
      · cases isStruct
      · obtain ⟨ds,among,inside⟩ := List.mem_flatten.mp member
        obtain ⟨e,wrapped,equal⟩ := (image ds).mp among
        exact ⟨e,wrapped,((variantDecls_spec equal).2 f).mp inside⟩
    · rintro ⟨e,wrapped,made⟩
      obtain ⟨ds,equal⟩ := total e wrapped
      have among := (image ds).mpr ⟨e,wrapped,equal⟩
      have inside := ((variantDecls_spec equal).2 f).mpr made
      exact List.mem_cons_of_mem _ (List.mem_flatten.mpr ⟨ds,among,inside⟩)

theorem unit_spec {g : Group} {unit : OutputUnit} (ok : p.unit g = .ok unit) :
    unit.rootKey = g.key ∧ ∀ name, unit.Forwards name ↔
      ∃ e ∈ p.catalog.wrappedMembers g, ∃ m ∈ e.methods, m.name = name ∧
        p.catalog.owns e name = true := by
  obtain ⟨key,_,total,functions⟩ := unit_functions ok
  refine ⟨key,fun name => ?_⟩
  constructor
  · rintro ⟨f,member,method,rfl⟩
    obtain ⟨e,wrapped,rfl | ⟨m,owned,forwards⟩⟩ := (functions f).mp member
    · exact absurd rfl method
    · obtain ⟨listed,owns⟩ := List.mem_filter.mp owned
      have name := (forward_head forwards).2
      exact ⟨e,wrapped,m,listed,name.symm,name ▸ owns⟩
  · rintro ⟨e,wrapped,m,listed,rfl,owns⟩
    have owned : m ∈ p.ownedMethods e := List.mem_filter.mpr ⟨listed,owns⟩
    obtain ⟨f,forwards⟩ := total e wrapped m owned
    obtain ⟨method,name⟩ := forward_head forwards
    exact ⟨f,(functions f).mpr ⟨e,wrapped,.inr ⟨m,owned,forwards⟩⟩,method,name⟩

theorem unit_head {g : Group} {unit : OutputUnit} (ok : p.unit g = .ok unit) :
    unit.fileName = Naming.fileName p.types g.descriptor.type ∧
      unit.proxyName = Naming.proxyName p.types g.descriptor.type ∧ unit.rootKey = g.key := by
  obtain ⟨decls,_,ok⟩ := bind_ok ok
  cases ok
  exact ⟨rfl,rfl,rfl⟩

theorem unit_total (p : Plan) (g : Group) (forwards : ∀ e ∈ p.catalog.wrappedMembers g, ∀ m ∈ e.methods,
    ∀ proxy, ∃ f, p.forward e proxy m = .ok f) : ∃ unit, p.unit g = .ok unit := by
  have each : ∀ e ∈ p.catalog.wrappedMembers g, ∃ decls,
      p.variantDecls (Naming.proxyName p.types g.descriptor.type) e = .ok decls := by
    intro e member
    obtain ⟨methods,ok⟩ := mapM_total (l := p.ownedMethods e)
      (f := p.forward e (Naming.proxyName p.types g.descriptor.type)) fun m owned =>
        forwards e member m (List.mem_filter.mp owned).1 _
    unfold variantDecls
    rw [ok]
    exact ⟨_,rfl⟩
  obtain ⟨decls,ok⟩ := mapM_total each
  unfold unit
  dsimp only
  rw [ok]
  exact ⟨_,rfl⟩

/-- The names that the file of a group takes up. -/
def names (p : Plan) (g : Group) : List (String × String) :=
  [(Naming.fileName p.types g.descriptor.type,g.key),
    (Naming.proxyName p.types g.descriptor.type,g.key)]

theorem takenNames_eq {groups : List Group} {units : List OutputUnit}
    (made : List.Forall₂ (fun g unit => p.unit g = .ok unit) groups units) :
    takenNames units = groups.flatMap p.names := by
  induction made with
  | nil => rfl
  | cons first _ ih =>
    obtain ⟨file,proxy,root⟩ := unit_head first
    unfold takenNames at ih ⊢
    rw [List.flatMap_cons,List.flatMap_cons,ih,file,proxy,root]
    rfl

/-- Files whose names follow the order of the groups are all generated, if all methods can be forwarded and no
name is taken twice. -/
theorem units_in_order (p : Plan)
    (forwards : ∀ e ∈ p.catalog.entries, ∀ m ∈ e.methods, ∀ proxy, ∃ f, p.forward e proxy m = .ok f)
    (increasing : (p.catalog.wrappedGroups.map fun g =>
      Naming.fileName p.types g.descriptor.type).Pairwise (· < ·))
    (free : collision? [] (p.catalog.wrappedGroups.flatMap p.names) = none) :
    ∃ units, p.units = .ok units ∧
      List.Forall₂ (fun g unit => p.unit g = .ok unit) p.catalog.wrappedGroups units := by
  obtain ⟨units,made⟩ := mapM_total (l := p.catalog.wrappedGroups) (f := p.unit) fun g _ =>
    unit_total p g fun e wrapped => by
      obtain ⟨⟨_,_,found⟩,_⟩ := mem_wrappedMembers.mp wrapped
      exact forwards e (Catalog.entry?_some found).1
  have each := mapM_forall₂ made
  have sorted : Text.sortBy OutputUnit.fileName units = units := by
    apply Text.sortBy_eq (List.Perm.refl _)
    rw [← List.pairwise_map]
    have files : p.catalog.wrappedGroups.map (fun g => Naming.fileName p.types g.descriptor.type) =
        units.map OutputUnit.fileName := by
      rw [← List.forall₂_eq_eq_eq,List.forall₂_map_left_iff,List.forall₂_map_right_iff]
      exact each.imp fun g unit ok => (unit_head ok).1.symm
    exact files ▸ increasing
  refine ⟨units,?_,each⟩
  unfold Plan.units
  rw [made]
  simp only [bind,Except.bind,sorted,takenNames_eq each,free]
  rfl

theorem units_of_forwards (p : Plan)
    (forwards : ∀ e ∈ p.catalog.entries, ∀ m ∈ e.methods, ∀ proxy, ∃ f, p.forward e proxy m = .ok f)
    (increasing : (p.catalog.wrappedGroups.map fun g =>
      Naming.fileName p.types g.descriptor.type).Pairwise (· < ·))
    (free : collision? [] (p.catalog.wrappedGroups.flatMap p.names) = none) :
    ∃ units, p.units = .ok units := by
  obtain ⟨units,planned,_⟩ := units_in_order p forwards increasing free
  exact ⟨units,planned⟩

theorem units_total (p : Plan)
    (fixed : ∀ e ∈ p.catalog.entries, ∀ m ∈ e.methods, m.signature.variadic = false)
    (increasing : (p.catalog.wrappedGroups.map fun g =>
      Naming.fileName p.types g.descriptor.type).Pairwise (· < ·))
    (free : collision? [] (p.catalog.wrappedGroups.flatMap p.names) = none) :
    ∃ units, p.units = .ok units :=
  units_of_forwards p (fun e member m listed proxy => forward_total p e proxy (fixed e member m listed))
    increasing free

/-- The files are those of the groups with a member that needs a proxy. -/
theorem mem_units {units : List OutputUnit} (ok : p.units = .ok units) :
    (∀ g ∈ p.catalog.wrappedGroups, ∃ unit, p.unit g = .ok unit) ∧
      ∀ unit, unit ∈ units ↔ ∃ g ∈ p.catalog.wrappedGroups, p.unit g = .ok unit := by
  obtain ⟨made,each,ok⟩ := bind_ok ok
  obtain ⟨total,image⟩ := mapM_ok each
  refine ⟨total,?_⟩
  intro unit
  dsimp only at ok
  split at ok
  · cases ok
  · cases ok
    rw [Text.mem_sortBy]
    exact image unit

end Plan

namespace Sample

def plan : Plan := ⟨catalog .hard,types,⟨"out","","Transform"⟩⟩

theorem wrappedGroups_plan : plan.catalog.wrappedGroups = [connGroup,serverGroup] := by
  apply Text.sortBy_eq
  · decide
  · decide

theorem wrappedMembers_server : plan.catalog.wrappedMembers serverGroup = [serverRefEntry .hard] := by
  decide +kernel

theorem owns_name : plan.catalog.owns (serverRefEntry .hard) "Name" = false := by decide +kernel

theorem fileName_server : Naming.fileName types (.named server) = "p_s.go" := by decide +kernel

theorem fileName_conn : Naming.fileName types (.named conn) = "p_c.go" := by decide +kernel

theorem proxyName_server : Naming.proxyName types (.named server) = "PS" := by decide +kernel

theorem proxyName_conn : Naming.proxyName types (.named conn) = "PC" := by decide +kernel

/-- Files can be made for the catalog with any transformer. -/
theorem units_of_target (target : Target) : ∃ units, Plan.units ⟨catalog .hard,types,target⟩ = .ok units := by
  have names : Plan.names ⟨catalog .hard,types,target⟩ connGroup = [("p_c.go","p.C"),("PC","p.C")] ∧
      Plan.names ⟨catalog .hard,types,target⟩ serverGroup = [("p_s.go","p.S"),("PS","p.S")] := by
    simp [Plan.names,connGroup,serverGroup,Group.key,fileName_conn,fileName_server,
      proxyName_conn,proxyName_server]
  have groups : (catalog .hard).wrappedGroups = [connGroup,serverGroup] := wrappedGroups_plan
  apply Plan.units_total
  · show ∀ e ∈ (catalog .hard).entries, ∀ m ∈ e.methods, m.signature.variadic = false
    decide
  · show ((catalog .hard).wrappedGroups.map _).Pairwise (· < ·)
    rw [groups]
    simp only [connGroup,serverGroup,List.map,fileName_conn,fileName_server]
    decide
  · simp [groups,names,Plan.collision?,List.lookup_cons]

theorem plan_units : ∃ units, plan.units = .ok units := units_of_target plan.target

end Sample

namespace Analysis

theorem owns_iff {c : Catalog} {e : Entry} {g : Group} {name : String} {claim : Claim}
    (found : c.group? e.root = some g) (held : g.claim? name = some claim) :
    c.owns e name = true ↔ e.key = claim.owner := by
  simp only [Catalog.owns,found,Group.owns,held,beq_iff_eq]
  exact eq_comm

/-- A group with a member that needs a proxy has its file, and of the names that are claimed in the group
the file forwards those whose owner needs a proxy. -/
theorem forwards_iff_owner_wrapped {u : Universe} {root : TypeExpr} {packages : List String}
    {a : Analysis} {target : Target} {units : List OutputUnit} (ok : run u root packages = .ok a)
    (generated : Plan.units ⟨a.catalog,u,target⟩ = .ok units) {g : Group}
    (group : g ∈ a.catalog.groups) {e : Entry} (member : e ∈ a.catalog.entries)
    (inside : e.key ∈ g.members) (wrapped : e.status ≠ .none) :
    (∃ unit ∈ units, unit.rootKey = g.key) ∧
      ∀ unit ∈ units, unit.rootKey = g.key → ∀ name claim, g.claim? name = some claim →
        (unit.Forwards name ↔
          ∃ owner ∈ a.catalog.entries, owner.key = claim.owner ∧ owner.status ≠ .none) := by
  obtain ⟨w,finished⟩ := finished_of_run ok
  obtain ⟨total,image⟩ := Plan.mem_units generated
  have needed : g ∈ a.catalog.wrappedGroups := Plan.mem_wrappedGroups.mpr
    ⟨group,e,⟨e.key,inside,Catalog.entry?_of_mem finished.distinct member⟩,wrapped⟩
  constructor
  · obtain ⟨unit,made⟩ := total g needed
    exact ⟨unit,(image unit).mpr ⟨g,needed,made⟩,(Plan.unit_spec made).1⟩
  · intro unit among key name claim held
    obtain ⟨g',needed',made⟩ := (image unit).mp among
    obtain ⟨key',forwards⟩ := Plan.unit_spec made
    have same : g' = g := by
      have first := finished.group?_of_mem (Plan.mem_wrappedGroups.mp needed').1
      rw [key'.symm.trans key,finished.group?_of_mem group] at first
      exact (Option.some.inj first).symm
    subst same
    rw [forwards]
    constructor
    · rintro ⟨x,among,_,_,_,owns⟩
      obtain ⟨⟨k,inGroup,found⟩,needs⟩ := Plan.mem_wrappedMembers.mp among
      obtain ⟨present,rfl⟩ := Catalog.entry?_some found
      have inRoot := (finished.mem_members_iff group present).mp inGroup
      have found := finished.group?_of_mem group
      rw [← inRoot] at found
      exact ⟨x,present,(owns_iff found held).mp owns,needs⟩
    · rintro ⟨x,present,owner,needs⟩
      obtain ⟨o,before,ownerKey,inRoot,inGroup,m,listed,named⟩ := finished.owner_of_claim group held
      obtain rfl : x = o :=
        Catalog.entry_unique finished.distinct present before (owner.trans ownerKey.symm)
      have found := finished.group?_of_mem group
      rw [← inRoot] at found
      refine ⟨x,?_,m,listed,named,(owns_iff found held).mpr ownerKey⟩
      apply Plan.mem_wrappedMembers.mpr
      refine ⟨⟨x.key,?_,Catalog.entry?_of_mem finished.distinct present⟩,needs⟩
      rw [ownerKey]
      exact inGroup

theorem sample_forwards : ∃ units,
    run Sample.types (.named Sample.server) [] = .ok ⟨Sample.catalog .hard,4,1⟩ ∧
      Sample.plan.units = .ok units ∧ Sample.serverGroup ∈ (Sample.catalog .hard).groups ∧
      Sample.serverRefEntry .hard ∈ (Sample.catalog .hard).entries ∧
      (Sample.serverRefEntry .hard).key ∈ Sample.serverGroup.members ∧
      (Sample.serverRefEntry .hard).status ≠ .none ∧
      Sample.serverGroup.claim? "Dial" = some ⟨"*p.S",false⟩ ∧
      (∃ unit ∈ units, unit.rootKey = "p.S") ∧
      ∀ unit ∈ units, unit.rootKey = "p.S" → unit.Forwards "Dial" := by
  obtain ⟨units,generated⟩ := Sample.plan_units
  have group : Sample.serverGroup ∈ (Sample.catalog .hard).groups := List.mem_cons_self
  have member : Sample.serverRefEntry .hard ∈ (Sample.catalog .hard).entries := List.mem_cons_self
  have inside : (Sample.serverRefEntry .hard).key ∈ Sample.serverGroup.members := List.mem_cons_self
  have wrapped : (Sample.serverRefEntry .hard).status ≠ .none := by decide
  have held : Sample.serverGroup.claim? "Dial" = some ⟨"*p.S",false⟩ := by decide
  obtain ⟨present,forwards⟩ :=
    forwards_iff_owner_wrapped Sample.run_types generated group member inside wrapped
  refine ⟨units,Sample.run_types,generated,group,member,inside,wrapped,held,present,?_⟩
  intro unit among key
  exact (forwards unit among key "Dial" _ held).mpr ⟨Sample.serverRefEntry .hard,member,rfl,wrapped⟩

/-- The reference to the server needs a proxy. `Name` belongs to the value form, which needs none, and so
the file has no `Name`. -/
theorem sample_lost : ∃ units,
    run Sample.types (.named Sample.server) [] = .ok ⟨Sample.catalog .hard,4,1⟩ ∧
      Sample.plan.units = .ok units ∧ Sample.serverGroup ∈ (Sample.catalog .hard).groups ∧
      Sample.serverRefEntry .hard ∈ (Sample.catalog .hard).entries ∧
      (Sample.serverRefEntry .hard).key ∈ Sample.serverGroup.members ∧
      (Sample.serverRefEntry .hard).status ≠ .none ∧
      Sample.serverGroup.claim? "Name" = some ⟨"p.S",true⟩ ∧
      (∃ unit ∈ units, unit.rootKey = "p.S") ∧
      ∀ unit ∈ units, unit.rootKey = "p.S" → ¬ unit.Forwards "Name" := by
  obtain ⟨units,generated⟩ := Sample.plan_units
  obtain ⟨total,image⟩ := Plan.mem_units generated
  refine ⟨units,Sample.run_types,generated,List.mem_cons_self,List.mem_cons_self,List.mem_cons_self,
    by decide,by decide,?_,?_⟩
  · have needed : Sample.serverGroup ∈ Sample.plan.catalog.wrappedGroups := by
      rw [Sample.wrappedGroups_plan]
      exact List.mem_cons_of_mem _ List.mem_cons_self
    obtain ⟨unit,made⟩ := total Sample.serverGroup needed
    exact ⟨unit,(image unit).mpr ⟨Sample.serverGroup,needed,made⟩,(Plan.unit_spec made).1⟩
  · intro unit among key
    obtain ⟨g,needed,made⟩ := (image unit).mp among
    obtain ⟨key',forwards⟩ := Plan.unit_spec made
    rw [Sample.wrappedGroups_plan] at needed
    rcases List.mem_pair.mp needed with rfl | rfl
    · exact absurd (key'.symm.trans key) (by decide)
    · rw [forwards,Sample.wrappedMembers_server]
      rintro ⟨e,single,_,_,_,owns⟩
      rw [List.mem_singleton.mp single,Sample.owns_name] at owns
      exact Bool.false_ne_true owns

end Analysis
end ProxyGen
