import Mathlib.Data.List.Count
import ProxyGen.Proofs.Growth
import ProxyGen.Proofs.Identifiers

/-! Catalogs and the records of how they came about. A record lists the registrations that succeeded, those
among them that a walk makes while it queues types. Edges are what the record says, and entries and groups
stay in step whatever fails on the way. -/
namespace ProxyGen

/-- A type that was registered, and the type that was said to mention it. -/
structure Registration where
  type : TypeExpr
  dependent : Option String

/-- The registration names the second key as a dependent of the first. -/
def Registration.Joins (r : Registration) (edge : String × String) : Prop :=
  r.type.key = edge.1 ∧ r.dependent = some edge.2

namespace Walk

/-- The registrations that queueing a stack of types makes. The first one to fail ends it. -/
def queueRecord (u : Universe) (scope : List String) (dependent : Option String)
    (stack : List TypeExpr) (w : Walk) : List Registration :=
  match stack with
  | [] => []
  | t :: rest =>
    if inScope scope t then
      match w.catalog.register u t dependent with
      | .error _ => []
      | .ok c =>
        if _ : t.key ∈ w.visited then
          ⟨t,dependent⟩ :: queueRecord u scope dependent rest { w with catalog := c }
        else
          match _ : elements u t with
          | .error _ => [⟨t,dependent⟩]
          | .ok ts =>
            ⟨t,dependent⟩ :: queueRecord u scope dependent (ts ++ rest)
              ⟨c,w.queue ++ [t.key],t.key :: w.visited⟩
    else queueRecord u scope dependent rest w
termination_by (undiscovered u w.visited,totalSize stack)
decreasing_by
  · exact .right _ (totalSize_rest t rest)
  · exact expansion_falls ‹_› ‹_› rest
  · exact .right _ (totalSize_rest t rest)

def seedRecord (u : Universe) (scope : List String) (root : TypeExpr) (w : Walk) :
    List Registration :=
  match seedType u root with
  | .error _ => []
  | .ok t => w.queueRecord u scope none [t]

def resultRecord (u : Universe) (scope : List String) (key : String) (w : Walk) (result : Param) :
    List Registration :=
  if result.type.isError then [] else w.queueRecord u scope (some key) [result.type]

def resultsRecord (u : Universe) (scope : List String) (key : String) (status : Status) :
    List Param → Walk → List Registration
  | [], _ => []
  | r :: rest, w =>
    resultRecord u scope key w r ++
      match takeResult u scope key status w r with
      | .error _ => []
      | .ok w => resultsRecord u scope key status rest w

def classifyRecord (u : Universe) (scope : List String) (key : String) (w : Walk) :
    List Registration :=
  match w.catalog.entry? key with
  | none => []
  | some e =>
    match u.methodSet e.descriptor.type with
    | .error _ => []
    | .ok methods =>
      let (c,claimed) := claimMethods w.catalog e methods
      resultsRecord u scope key (errorStatus e.descriptor.kind methods)
        (claimed.flatMap fun m => m.signature.results) { w with catalog := c }

def drainRecord (u : Universe) (scope : List String) (w : Walk) : List Registration :=
  match _ : w.queue with
  | [] => []
  | key :: rest =>
    classifyRecord u scope key { w with queue := rest } ++
      match _ : classify u scope key { w with queue := rest } with
      | .error _ => []
      | .ok w' => drainRecord u scope w'
termination_by w.potential u
decreasing_by exact potential_turn ‹_› ‹_›

end Walk

theorem Universe.shape_unknown {u : Universe} {n : NamedType} {e : Error}
    (unknown : u.underlying n = .error e) : u.shape (.named n) = .error e := by
  rw [shape,shapeFrom_named,unknown]
  rfl

namespace Catalog

/-- The second catalog has the edges of the first and those of the record. -/
def Records (c : Catalog) (record : List Registration) (c' : Catalog) : Prop :=
  ∀ edge, edge ∈ c'.edges ↔ edge ∈ c.edges ∨ ∃ r ∈ record, r.Joins edge

section Records
variable {u : Universe} {c c' c'' : Catalog}

theorem Records.of_eq (same : c'.edges = c.edges) : c.Records [] c' := by
  intro edge
  simp [same]

theorem Records.append {first second : List Registration} (before : c.Records first c')
    (after : c'.Records second c'') : c.Records (first ++ second) c'' := by
  intro edge
  rw [after edge,before edge]
  simp only [List.mem_append,or_and_right,exists_or,or_assoc]

theorem records_register {t : TypeExpr} {dependent : Option String}
    (ok : c.register u t dependent = .ok c') : c.Records [⟨t,dependent⟩] c' := by
  intro edge
  rw [mem_edges_register ok]
  simp [Registration.Joins,eq_comm]

/-- Enters all types of a record. -/
def registerAll (u : Universe) (record : List Registration) (c : Catalog) : Except Error Catalog :=
  record.foldlM (fun c r => c.register u r.type r.dependent) c

theorem registerAll_cons {t : TypeExpr} {dependent : Option String} {record : List Registration}
    (ok : c.register u t dependent = .ok c') :
    c.registerAll u (⟨t,dependent⟩ :: record) = c'.registerAll u record := by
  rw [registerAll,List.foldlM_cons,ok]
  rfl

theorem records_registerAll {record : List Registration} (ok : c.registerAll u record = .ok c') :
    c.Records record c' := by
  induction record generalizing c with
  | nil =>
    cases ok
    exact .of_eq rfl
  | cons r rest ih =>
    obtain ⟨c₁,first,later⟩ := bind_ok ok
    exact (records_register first).append (ih later)

/-- A registration fails when the type is new and has no shape, before anything has been entered; its root
has a shape if it has one itself. -/
theorem register_error_iff {t : TypeExpr} {dependent : Option String} {e : Error} :
    c.register u t dependent = .error e ↔ t.key ∉ c.keys ∧ Descriptor.ofType u t = .error e := by
  unfold register addEntry
  cases found : c.entry? t.key with
  | some known =>
    have present := mem_keys_of_found found
    cases dependent <;> simp [present]
  | none =>
    have absent := entry?_none.mp found
    cases described : Descriptor.ofType u t with
    | error e' => simp [absent]
    | ok d =>
      obtain ⟨s,root,_⟩ := Universe.shape_root (Descriptor.shape_of_ofType described)
      have grouped : ∃ c₁, c.addGroup u t = .ok c₁ := by
        unfold addGroup
        split
        · exact ⟨_,rfl⟩
        · simp [Descriptor.ofType,root]
      obtain ⟨c₁,grouped⟩ := grouped
      cases dependent <;> simp [grouped]

end Records
end Catalog

namespace Walk
open Catalog

section Records
variable (u : Universe) (scope : List String)

/-- What queueing leaves behind, finished or not, is what its registrations have made. -/
theorem registerAll_queueRecord (dependent : Option String) (stack : List TypeExpr) (w : Walk) :
    w.catalog.registerAll u (w.queueRecord u scope dependent stack) =
      .ok (ended (w.queueAll u scope dependent stack)).catalog := by
  fun_induction queueAll u scope dependent stack w with
  | case1 w =>
    rw [queueRecord]
    rfl
  | case2 w t rest inside e failed =>
    rw [queueRecord]
    simp only [inside,failed,if_true]
    rfl
  | case3 w t rest inside c registered visited ih =>
    rw [queueRecord]
    simp only [inside,registered,visited,if_true,dif_pos]
    rw [registerAll_cons registered]
    exact ih
  | case4 w t rest inside c registered fresh w₁ e failed =>
    rw [queueRecord]
    simp only [inside,registered,fresh,if_true,dite_false]
    split
    next =>
      rw [registerAll_cons registered]
      rfl
    next known => cases failed.symm.trans known
  | case5 w t rest inside c registered fresh w₁ parts known ih =>
    rw [queueRecord]
    simp only [inside,registered,fresh,if_true,dite_false]
    split
    next failed => cases known.symm.trans failed
    next parts' known' =>
      cases known.symm.trans known'
      rw [registerAll_cons registered]
      exact ih
  | case6 w t rest outside ih =>
    rw [queueRecord]
    simp only [outside]
    exact ih

theorem records_queueAll (dependent : Option String) (stack : List TypeExpr) (w : Walk) :
    w.catalog.Records (w.queueRecord u scope dependent stack)
      (ended (w.queueAll u scope dependent stack)).catalog :=
  records_registerAll (registerAll_queueRecord u scope dependent stack w)

theorem records_seed (root : TypeExpr) (w : Walk) :
    w.catalog.Records (w.seedRecord u scope root) (ended (w.seed u scope root)).catalog := by
  unfold seedRecord seed
  cases seedType u root with
  | error e => exact .of_eq rfl
  | ok t => exact records_queueAll u scope none [t] w

theorem records_takeResult (key : String) (status : Status) (w : Walk) (result : Param) :
    w.catalog.Records (resultRecord u scope key w result)
      (ended (takeResult u scope key status w result)).catalog := by
  unfold resultRecord takeResult
  split
  next => exact .of_eq rfl
  next => exact records_queueAll u scope (some key) [result.type] w

theorem records_takeResults (key : String) (status : Status) (results : List Param) (w : Walk) :
    w.catalog.Records (resultsRecord u scope key status results w)
      (ended (takeResults u scope key status results w)).catalog := by
  induction results generalizing w with
  | nil => exact .of_eq rfl
  | cons r rest ih =>
    have first := records_takeResult u scope key status w r
    simp only [resultsRecord,takeResults]
    cases taken : takeResult u scope key status w r with
    | error h =>
      rw [taken] at first
      exact (List.append_nil _).symm ▸ first
    | ok w₁ =>
      rw [taken] at first
      exact first.append (ih w₁)

theorem edges_claimMethods (c : Catalog) (e : Entry) (methods : List Selection) :
    (claimMethods c e methods).1.edges = c.edges := by
  unfold claimMethods
  split <;> rfl

theorem records_classify (key : String) (w : Walk) :
    w.catalog.Records (classifyRecord u scope key w) (ended (classify u scope key w)).catalog := by
  unfold classifyRecord classify
  cases w.catalog.entry? key with
  | none => exact .of_eq rfl
  | some e =>
    cases offered : u.methodSet e.descriptor.type with
    | error err =>
      simp only [offered]
      exact .of_eq rfl
    | ok methods =>
      have claimed : w.catalog.Records [] (claimMethods w.catalog e methods).1 :=
        .of_eq (edges_claimMethods w.catalog e methods)
      have taken := claimed.append (records_takeResults u scope key
        (errorStatus e.descriptor.kind methods)
        ((claimMethods w.catalog e methods).2.flatMap fun m => m.signature.results)
        { w with catalog := (claimMethods w.catalog e methods).1 })
      simp only [offered]
      split
      next h failed =>
        rw [failed] at taken
        exact taken
      next w₁ done =>
        rw [done] at taken
        exact taken

theorem records_drain (w : Walk) :
    w.catalog.Records (w.drainRecord u scope) (ended (w.drain u scope)).catalog := by
  fun_induction drain u scope w with
  | case1 w empty =>
    rw [drainRecord]
    split
    next => exact .of_eq rfl
    next key rest queued => cases empty.symm.trans queued
  | case2 w key rest queued h failed =>
    have first := records_classify u scope key { w with queue := rest }
    rw [failed] at first
    rw [drainRecord]
    split
    next empty => cases queued.symm.trans empty
    next key' rest' queued' =>
      cases queued.symm.trans queued'
      split
      next => exact (List.append_nil _).symm ▸ first
      next done => cases failed.symm.trans done
  | case3 w key rest queued w' done ih =>
    have first := records_classify u scope key { w with queue := rest }
    rw [done] at first
    rw [drainRecord]
    split
    next empty => cases queued.symm.trans empty
    next key' rest' queued' =>
      cases queued.symm.trans queued'
      split
      next failed => cases done.symm.trans failed
      next w'' done' =>
        cases done.symm.trans done'
        exact first.append ih

end Records

/-- Calls on a walk with their record. Any of them may end early. -/
inductive Recorded (u : Universe) (scope : List String) (start : Walk) : Walk → List Registration → Prop
  | start : Recorded u scope start start []
  | seed {w record} (root) (before : Recorded u scope start w record) :
      Recorded u scope start (ended (w.seed u scope root)) (record ++ w.seedRecord u scope root)
  | enqueue {w record} (t dependent) (known : ∀ d, dependent = some d → d ∈ w.catalog.keys)
      (before : Recorded u scope start w record) :
      Recorded u scope start (ended (w.enqueue u scope t dependent))
        (record ++ w.queueRecord u scope dependent [t])
  | drain {w record} (before : Recorded u scope start w record) :
      Recorded u scope start (ended (w.drain u scope)) (record ++ w.drainRecord u scope)

section Recorded
variable {u : Universe} {scope : List String} {start w : Walk} {record : List Registration}

theorem Recorded.calls (recorded : Recorded u scope start w record) : Relation.ReflTransGen (Call u scope) start w := by
  induction recorded with
  | start => exact .refl
  | seed root _ ih => exact ih.tail (.seed root)
  | enqueue t dependent known _ ih => exact ih.tail (.enqueue t dependent known)
  | drain _ ih => exact ih.tail .drain

theorem Recorded.records (recorded : Recorded u scope start w record) : start.catalog.Records record w.catalog := by
  induction recorded with
  | start => exact .of_eq rfl
  | seed root _ ih => exact ih.append (records_seed u scope root _)
  | enqueue t dependent _ _ ih => exact ih.append (records_queueAll u scope dependent [t] _)
  | drain _ ih => exact ih.append (records_drain u scope _)

end Recorded
end Walk

namespace Catalog

/-- Operations on the empty catalog, with their record. A registration may be refused. -/
inductive Recorded (u : Universe) : Catalog → List Registration → Prop
  | empty : Recorded u empty []
  | register {c c' record} (t dependent) (known : ∀ d, dependent = some d → d ∈ c.keys)
      (before : Recorded u c record) (ok : c.register u t dependent = .ok c') :
      Recorded u c' (record ++ [⟨t,dependent⟩])
  | refuse {c record e} (t dependent) (before : Recorded u c record)
      (failed : c.register u t dependent = .error e) : Recorded u c record
  | raise {c record} (key s) (before : Recorded u c record) : Recorded u (c.raise key s) record
  | claim {c record} (root method owner direct) (before : Recorded u c record) :
      Recorded u (c.modifyGroup root fun g => g.claim method owner direct) record
  | walk {c w record walked} (scope) (before : Recorded u c record)
      (calls : Walk.Recorded u scope (.start c) w walked) : Recorded u w.catalog (record ++ walked)
  | resolve {c record} (before : Recorded u c record) : Recorded u c.resolve.1 record

section Recorded
variable {u : Universe} {c c' : Catalog} {record : List Registration}

theorem Recorded.grown (recorded : Recorded u c record) : Grown u c := by
  induction recorded with
  | empty => exact .refl
  | register t dependent known _ ok ih => exact ih.tail (.register t dependent known ok)
  | refuse t dependent _ failed ih => exact ih
  | raise key s _ ih => exact ih.tail (.raise key s)
  | claim root method owner direct _ ih => exact ih.tail (.claim root method owner direct)
  | walk scope _ calls ih => exact ih.tail (.walk scope calls.calls)
  | resolve _ ih => exact ih.tail .resolve

theorem edges_resolve (c : Catalog) : c.resolve.1.edges = c.edges := by
  have same := congrArg Catalog.edges (bare_resolve c)
  simpa using same

theorem Recorded.records (recorded : Recorded u c record) :
    Catalog.Records Catalog.empty record c := by
  induction recorded with
  | empty => exact .of_eq rfl
  | register t dependent _ _ ok ih => exact ih.append (records_register ok)
  | refuse t dependent _ failed ih => exact ih
  | raise key s _ ih => exact ih
  | claim root method owner direct _ ih => exact ih
  | walk scope _ calls ih => exact ih.append calls.records
  | @resolve c _ _ ih =>
    intro edge
    rw [edges_resolve]
    exact ih edge

/-- Edges are listed once, and each group has the shape of the type it stands for. -/
structure Tidy (u : Universe) (c : Catalog) : Prop where
  edges : c.edges.Nodup
  groups : ∀ g ∈ c.groups, Descriptor.ofType u g.descriptor.type = .ok g.descriptor

theorem Tidy.addEntry {t : TypeExpr} (tidy : c.Tidy u) (ok : c.addEntry u t = .ok c') :
    c'.Tidy u where
  edges := by
    by_cases known : t.key ∈ c.keys
    · rw [addEntry_known known] at ok
      cases ok
      exact tidy.edges
    · rw [(addEntry_new known ok).edges]
      exact tidy.edges
  groups := by
    intro g member
    rcases addEntry_groups ok member with ⟨g₀,old,same⟩ | described
    · rw [same]
      exact tidy.groups g₀ old
    · rw [(ofType_key described).2]
      exact described

theorem Tidy.link (tidy : c.Tidy u) (source : String) (dependent : Option String) :
    (c.link source dependent).Tidy u where
  edges := by
    cases dependent with
    | none => exact tidy.edges
    | some d =>
      simp only [Catalog.link,addEdge]
      split
      next => exact tidy.edges
      next absent => exact List.nodup_cons.mpr ⟨absent,tidy.edges⟩
  groups := by
    rw [groups_link]
    exact tidy.groups

theorem Tidy.change (tidy : c.Tidy u) (change : Change u c c') : c'.Tidy u := by
  cases change with
  | register t dependent known ok =>
    obtain ⟨c₁,added,rfl⟩ := register_eq ok
    exact (tidy.addEntry added).link t.key dependent
  | raise key s => exact ⟨tidy.edges,tidy.groups⟩
  | list key methods => exact ⟨tidy.edges,tidy.groups⟩
  | claim root method owner direct =>
    refine ⟨tidy.edges,?_⟩
    intro g' member
    obtain ⟨g,group,rfl⟩ := List.mem_map.mp member
    split
    · rw [(Group.claim_keeps g method owner direct).1]
      exact tidy.groups g group
    · exact tidy.groups g group

theorem Grown.tidy (grown : Grown u c) : c.Tidy u := by
  have changes := grown.changes
  clear grown
  induction changes with
  | refl => exact ⟨List.nodup_nil,fun _ member => absurd member List.not_mem_nil⟩
  | tail _ last ih => exact ih.change last

end Recorded

/-- Entries, keys, groups and edges in step with each other and with a record. -/
structure InStep (c : Catalog) (record : List Registration) : Prop where
  keys : c.keys.Nodup
  named : ∀ e ∈ c.entries, e.key = e.descriptor.type.key ∧ c.entry? e.key = some e
  groups : (c.groups.map Group.key).Nodup
  grouped : ∀ e ∈ c.entries, ∃ g ∈ c.groups, g.key = e.descriptor.type.root.key ∧ e.root = g.key ∧
    g.members.count e.key = 1 ∧ ∀ g' ∈ c.groups, e.key ∈ g'.members → g' = g
  members : ∀ g ∈ c.groups, ∀ key ∈ g.members, key ∈ c.keys
  once : c.edges.Nodup
  edges : ∀ source dependent, (source,dependent) ∈ c.edges ↔
    ∃ r ∈ record, r.type.key = source ∧ r.dependent = some dependent
  shapes : c.Keyed → ∀ g ∈ c.groups, ∀ e ∈ c.entries, e.key ∈ g.members →
    e.descriptor.kind = g.descriptor.kind ∧
      e.descriptor.depth = g.descriptor.depth + e.descriptor.type.references

section InStep
variable {u : Universe} {c : Catalog} {record : List Registration}

theorem membersOf_of_mem (good : c.WellFormed u) {g : Group} (group : g ∈ c.groups) :
    c.membersOf g.key = g.members := by
  simp [membersOf,group?_of_mem good.groupsDistinct group]

/-- A group describes the root type of its members where types are told apart by their keys. -/
theorem shapes_of_keyed (grown : Grown u c) (keyed : c.Keyed) {g : Group} (group : g ∈ c.groups)
    {e : Entry} (member : e ∈ c.entries) (root : e.root = g.key) :
    e.descriptor.kind = g.descriptor.kind ∧
      e.descriptor.depth = g.descriptor.depth + e.descriptor.type.references := by
  obtain ⟨e₀,present,root₀,type⟩ := grown.founded.described g group
  have described := Descriptor.shape_of_ofType (grown.wellFormed.described e member).1
  obtain ⟨s,shape,kind,depth⟩ := Universe.shape_root described
  have grouped := Descriptor.shape_of_ofType (grown.tidy.groups g group)
  rw [type,keyed e₀ present e member (root₀.trans root.symm),shape] at grouped
  cases grouped
  exact ⟨kind,depth⟩

theorem Recorded.inStep (recorded : Recorded u c record) : c.InStep record where
  keys := recorded.grown.wellFormed.distinct
  named e member := by
    have good := recorded.grown.wellFormed
    exact ⟨(ofType_key (good.described e member).1).1,entry?_of_mem good.distinct member⟩
  groups := recorded.grown.wellFormed.groupsDistinct
  grouped e member := by
    have good := recorded.grown.wellFormed
    obtain ⟨g,_,group,named⟩ := good.group_of_mem member
    have inside := (good.mem_members_iff group member).mpr named.symm
    have once : g.members.Nodup := membersOf_of_mem good group ▸ recorded.grown.founded.once g.key
    refine ⟨g,group,named.trans (good.described e member).2,named.symm,
      List.count_eq_one_of_mem once inside,?_⟩
    intro g' group' inside'
    have named' := (good.mem_members_iff group' member).mp inside'
    exact List.inj_on_of_nodup_map good.groupsDistinct group' group (named'.symm.trans named.symm)
  members g group key inside := by
    have good := recorded.grown.wellFormed
    rw [← membersOf_of_mem good group] at inside
    obtain ⟨e,member,rfl,_⟩ := good.members g.key key inside
    exact mem_keys member
  once := recorded.grown.tidy.edges
  edges source dependent := by
    rw [recorded.records (source,dependent)]
    simp [Catalog.empty,Registration.Joins]
  shapes keyed g group e member inside :=
    shapes_of_keyed recorded.grown keyed group member
      ((recorded.grown.wellFormed.mem_members_iff group member).mp inside)

end InStep

/-- After any operations a catalog is in step with their record. A registration fails over the type alone,
with nothing entered; what queueing leaves behind is what its registrations have made, the one that
fails not among them. -/
theorem inStep_of_recorded {u : Universe} {c : Catalog} {record : List Registration}
    (recorded : Recorded u c record) :
    c.InStep record ∧
      (∀ t dependent e, c.register u t dependent = .error e ↔
        t.key ∉ c.keys ∧ Descriptor.ofType u t = .error e) ∧
      ∀ scope dependent t queue visited,
        c.registerAll u (Walk.queueRecord u scope dependent [t] ⟨c,queue,visited⟩) =
          .ok (Walk.ended (Walk.enqueue u scope t dependent ⟨c,queue,visited⟩)).catalog :=
  ⟨recorded.inStep,fun _ _ _ => register_error_iff,
    fun scope dependent t queue visited =>
      Walk.registerAll_queueRecord u scope dependent [t] ⟨c,queue,visited⟩⟩

/-- An analysis walks through the empty catalog. -/
theorem Recorded.of_walk {u : Universe} {root : TypeExpr} {packages : List String} {w : Walk}
    (walked : Analysis.walk u root packages = .ok w) : ∃ record, Recorded u w.catalog record := by
  unfold Analysis.walk at walked
  cases begins : (Walk.start Catalog.empty).seed u (Analysis.scopeOf root packages) root with
  | error h => simp [begins] at walked
  | ok w₀ =>
    simp only [begins] at walked
    have seeded : Walk.Recorded u (Analysis.scopeOf root packages) (.start Catalog.empty) _ _ :=
      .seed root .start
    rw [begins] at seeded
    have drained := Walk.Recorded.drain seeded
    rw [Walk.ended,walked] at drained
    exact ⟨_,.walk _ .empty drained⟩

theorem sample_inStep : ∃ record, Recorded Sample.types (Sample.catalog .none) record ∧
    (Sample.catalog .none).InStep record ∧ (Sample.catalog .none).Keyed ∧
      (∃ r ∈ record, r.type.key = "*p.C" ∧ r.dependent = some "*p.S") ∧
        (Sample.catalog .none).register Sample.types (.named ⟨"p","X"⟩) none =
          .error (.unknownType ⟨"p","X"⟩) := by
  obtain ⟨record,recorded⟩ := Recorded.of_walk Sample.walk_types
  obtain ⟨inStep,fails,_⟩ := inStep_of_recorded recorded
  have keyed : (Sample.catalog .none).Keyed := by
    unfold Keyed
    decide
  have unknown : Sample.types.underlying ⟨"p","X"⟩ = .error (.unknownType ⟨"p","X"⟩) := by decide +kernel
  have shapeless : Descriptor.ofType Sample.types (.named ⟨"p","X"⟩) =
      .error (.unknownType ⟨"p","X"⟩) := by
    rw [Descriptor.ofType,Universe.shape_unknown unknown]
  refine ⟨record,recorded,inStep,keyed,(inStep.edges _ _).mp (by decide),(fails _ _ _).mpr ⟨?_,shapeless⟩⟩
  decide

end Catalog
end ProxyGen
