import ProxyGen.Proofs.Turns

/-! Finished analyses. At the end of a walk nothing is on the stack, nobody has a turn and nobody waits, so
all that a walk keeps up holds without reserve; spreading then changes statuses alone. -/
namespace ProxyGen

namespace Walk

/-- All that a walk from the empty catalog keeps up. -/
structure Orderly (u : Universe) (scope : List String) (cfg : Config) : Prop where
  sound : Sound u cfg
  explored : Explored u scope cfg
  settled : Settled u cfg.walk.catalog.claim? cfg.ledger cfg.walk.queue
  accounted : Accounted u scope cfg

namespace Orderly
variable {u : Universe} {scope : List String} {cfg cfg' : Config}

theorem start (u : Universe) (scope : List String) (t : TypeExpr) :
    Orderly u scope ⟨Walk.start .empty,[.type t],none,none⟩ where
  sound := .between Built.empty.good fun _ target => by cases target
  explored := ⟨rfl,fun _ member => absurd member List.not_mem_nil,
    fun _ member => absurd member List.not_mem_nil⟩
  settled := settled_empty u
  accounted := ⟨fun _ present => (by cases present),fun _ member => absurd member List.not_mem_nil,
    fun _ member => absurd member List.not_mem_nil⟩

theorem step (orderly : Orderly u scope cfg) (step : Step u scope cfg cfg') :
    Orderly u scope cfg' where
  sound := orderly.sound.step step
  explored := orderly.explored.step orderly.sound step
  settled := settled_step orderly.sound orderly.explored orderly.settled step
  accounted := orderly.accounted.step orderly.sound orderly.explored step

theorem steps (orderly : Orderly u scope cfg) (steps : Steps u scope cfg cfg') :
    Orderly u scope cfg' := by
  induction steps with
  | refl => exact orderly
  | tail _ last ih => exact ih.step last

theorem of_walk {root : TypeExpr} {packages : List String} {w : Walk}
    (done : Analysis.walk u root packages = .ok w) :
    w.queue = [] ∧ Orderly u (Analysis.scopeOf root packages) ⟨w,[],none,none⟩ := by
  obtain ⟨t,_,empty,walked⟩ := steps_of_walk done
  exact ⟨empty,(start u _ t).steps walked⟩

end Orderly
end Walk

namespace Catalog

def ledger (c : Catalog) : List Entry := c.entries.map fun e => { e with status := .none }

theorem ledger_withStatuses (c : Catalog) (status : String → Status) :
    (c.withStatuses status).ledger = c.ledger := by
  simp [ledger,withStatuses,Function.comp_def]

theorem ledger_of_idle (w : Walk) (stack : List Walk.Item) (d : Option String) :
    Walk.Config.ledger ⟨w,stack,d,none⟩ = w.catalog.ledger := by
  simp [Walk.Config.ledger,ledger,Walk.Config.settled,Walk.Config.granted]

theorem mem_ledger {c : Catalog} {e : Entry} (member : e ∈ c.entries) :
    { e with status := .none } ∈ c.ledger :=
  List.mem_map_of_mem member

theorem mem_withStatuses {c : Catalog} {status : String → Status} {e : Entry}
    (member : e ∈ (c.withStatuses status).entries) :
    ∃ e₀ ∈ c.entries, e = { e₀ with status := status e₀.key } := by
  obtain ⟨e₀,present,equal⟩ := List.mem_map.mp member
  exact ⟨e₀,present,equal.symm⟩

end Catalog

namespace Analysis

/-- A finished analysis as the walk that it ends and the least statuses over what the walk found. -/
structure Finished (u : Universe) (scope : List String) (a : Analysis) (w : Walk) : Prop where
  orderly : Walk.Orderly u scope ⟨w,[],none,none⟩
  settled : Walk.Settled u w.catalog.claim? w.catalog.ledger []
  catalog : a.catalog = w.catalog.withStatuses a.catalog.statusOf
  least : IsLeast {status | w.catalog.statusOf ≤ status ∧ w.catalog.Closed status} a.catalog.statusOf
  soft : a.catalog.SoftOnlyInterfaces
  visited : a.visited = w.visited.length

theorem walk_of_run {u : Universe} {root : TypeExpr} {packages : List String} {a : Analysis}
    (ok : run u root packages = .ok a) : ∃ w, walk u root packages = .ok w ∧
      a = ⟨w.catalog.resolve.1,w.visited.length,w.catalog.resolve.2⟩ := by
  unfold run at ok
  cases walked : walk u root packages with
  | error h => simp [walked] at ok
  | ok w =>
    simp only [walked,Except.ok.injEq] at ok
    exact ⟨w,rfl,ok.symm⟩

theorem finished_of_walk {u : Universe} {root : TypeExpr} {packages : List String} {w : Walk}
    (walked : walk u root packages = .ok w) : Finished u (scopeOf root packages)
      ⟨w.catalog.resolve.1,w.visited.length,w.catalog.resolve.2⟩ w := by
  obtain ⟨empty,orderly⟩ := Walk.Orderly.of_walk walked
  have distinct := orderly.sound.good.distinct
  obtain ⟨after,result,fits,_⟩ := Catalog.resolve_spec distinct orderly.sound.soft
  obtain ⟨least,same⟩ := Catalog.statusOf_resolve distinct orderly.sound.soft
  refine ⟨orderly,?_,same,least,?_,rfl⟩
  · have settled := orderly.settled
    rw [Catalog.ledger_of_idle] at settled
    change Walk.Settled u w.catalog.claim? w.catalog.ledger w.queue at settled
    rw [empty] at settled
    exact settled
  · change w.catalog.resolve.1.SoftOnlyInterfaces
    rw [result]
    exact Catalog.softOnlyInterfaces_withStatuses distinct fits

theorem finished_of_run {u : Universe} {root : TypeExpr} {packages : List String} {a : Analysis}
    (ok : run u root packages = .ok a) : ∃ w, Finished u (scopeOf root packages) a w := by
  obtain ⟨w,walked,rfl⟩ := walk_of_run ok
  exact ⟨w,finished_of_walk walked⟩

namespace Finished
variable {u : Universe} {scope : List String} {a : Analysis} {w : Walk}

theorem keys (finished : Finished u scope a w) : a.catalog.keys = w.catalog.keys := by
  rw [finished.catalog,Catalog.keys_withStatuses]

theorem edges (finished : Finished u scope a w) : a.catalog.edges = w.catalog.edges := by
  rw [finished.catalog,Catalog.edges_withStatuses]

theorem group? (finished : Finished u scope a w) (root : String) :
    a.catalog.group? root = w.catalog.group? root := by
  rw [finished.catalog]
  rfl

theorem distinct (finished : Finished u scope a w) : a.catalog.keys.Nodup := by
  rw [finished.keys]
  exact finished.orderly.sound.good.distinct

theorem ledger (finished : Finished u scope a w) : a.catalog.ledger = w.catalog.ledger := by
  rw [finished.catalog,Catalog.ledger_withStatuses]

/-- An entry at the end of the walk, before statuses were spread. -/
theorem origin (finished : Finished u scope a w) {e : Entry} (member : e ∈ a.catalog.entries) :
    ∃ e₀ ∈ w.catalog.entries, e₀.descriptor = e.descriptor ∧ e₀.root = e.root ∧
      e₀.methods = e.methods := by
  rw [finished.catalog] at member
  obtain ⟨e₀,present,rfl⟩ := Catalog.mem_withStatuses member
  exact ⟨e₀,present,rfl,rfl,rfl⟩

theorem met (finished : Finished u scope a w) {source dependent : Entry}
    (first : source ∈ a.catalog.entries) (second : dependent ∈ a.catalog.entries)
    (edge : (source.key,dependent.key) ∈ a.catalog.edges) :
    source.status.effective dependent.descriptor.kind ≤ dependent.status := by
  have closed := finished.least.1.2
  rw [finished.edges] at edge
  obtain ⟨e₀,present,same,_⟩ := finished.origin second
  have key : e₀.key = dependent.key := congrArg Descriptor.key same
  have reached := closed _ _ edge e₀ (by
    rw [← key]
    exact Catalog.entry?_of_mem finished.orderly.sound.good.distinct present)
  rw [same,Catalog.statusOf_of_mem finished.distinct first,
    Catalog.statusOf_of_mem finished.distinct second] at reached
  exact reached

theorem groups (finished : Finished u scope a w) : a.catalog.groups = w.catalog.groups := by
  rw [finished.catalog]
  rfl

theorem group?_of_mem (finished : Finished u scope a w) {g : Group} (member : g ∈ a.catalog.groups) :
    a.catalog.group? g.key = some g := by
  apply Catalog.group?_of_mem _ member
  rw [finished.groups]
  exact finished.orderly.sound.good.groupsDistinct

theorem mem_members_iff (finished : Finished u scope a w) {g : Group} (group : g ∈ a.catalog.groups)
    {e : Entry} (member : e ∈ a.catalog.entries) : e.key ∈ g.members ↔ e.root = g.key := by
  obtain ⟨e₀,present,same,root,_⟩ := finished.origin member
  have key : e₀.key = e.key := congrArg Descriptor.key same
  rw [finished.groups] at group
  rw [← key,← root]
  exact finished.orderly.sound.good.mem_members_iff group present

/-- The owner of a claim is a member of the group and lists the method. -/
theorem owner_of_claim (finished : Finished u scope a w) {g : Group} (group : g ∈ a.catalog.groups)
    {name : String} {claim : Claim} (held : g.claim? name = some claim) :
    ∃ owner ∈ a.catalog.entries, owner.key = claim.owner ∧ owner.root = g.key ∧
      claim.owner ∈ g.members ∧ ∃ m ∈ owner.methods, m.name = name := by
  have found := finished.group?_of_mem group
  rw [finished.group?] at found
  have claimed : w.catalog.claim? g.key name = some claim := by
    simp [Catalog.claim?,found,held]
  obtain ⟨v,inside,root,key,m,listed,named,_⟩ := finished.settled.held g.key name claim claimed
  rw [← finished.ledger] at inside
  obtain ⟨owner,member,rfl⟩ := List.mem_map.mp inside
  have grouped := (finished.mem_members_iff group member).mpr root
  exact ⟨owner,member,key,root,key ▸ grouped,m,listed,named⟩

end Finished
end Analysis
end ProxyGen
