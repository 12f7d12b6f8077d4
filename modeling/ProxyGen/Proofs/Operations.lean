import Mathlib.Logic.Relation
import ProxyGen.Proofs.WalkCatalogs

/-! What can be done with a catalog. Types are registered, statuses raised, names claimed, walks go through it
and statuses are spread; whole walks and spreading come down to the first few of these, so what each
single change keeps is kept by every catalog that can come about. -/
namespace ProxyGen

namespace Catalog

/-- A single change. -/
inductive Change (u : Universe) : Catalog → Catalog → Prop
  | register {c c'} (t dependent) (known : ∀ d, dependent = some d → d ∈ c.keys)
      (ok : c.register u t dependent = .ok c') : Change u c c'
  | raise {c} (key s) : Change u c (c.raise key s)
  | list {c} (key methods) :
      Change u c (c.modifyEntry key fun e => { e with methods := e.methods ++ methods })
  | claim {c} (root method owner direct) :
      Change u c (c.modifyGroup root fun g => g.claim method owner direct)

abbrev Changes (u : Universe) : Catalog → Catalog → Prop := Relation.ReflTransGen (Change u)

section Change
variable {u : Universe} {c c' : Catalog}

theorem WellFormed.change (good : c.WellFormed u) (change : Change u c c') : c'.WellFormed u := by
  cases change with
  | register t dependent known ok => exact good.register known ok
  | raise key s => exact good.modifyEntry key fun e => raise_keeps e s
  | list key methods => exact good.modifyEntry key fun _ => ⟨rfl,rfl⟩
  | claim root method owner direct =>
    exact good.modifyGroup root fun g => Group.claim_keeps g method owner direct

theorem WellFormed.changes (good : c.WellFormed u) (changes : Changes u c c') : c'.WellFormed u := by
  induction changes with
  | refl => exact good
  | tail _ last ih => exact ih.change last

theorem Change.mem_keys (change : Change u c c') {key : String} (present : key ∈ c.keys) :
    key ∈ c'.keys := by
  cases change with
  | register t dependent known ok => exact (mem_keys_register ok).2 key present
  | raise key s =>
    rw [Catalog.raise,keys_modifyEntry c key fun e => raise_key e s]
    exact present
  | list key methods =>
    rw [keys_modifyEntry]
    · exact present
    · exact fun _ => rfl
  | claim root method owner direct => exact present

end Change

section Claims
variable {c : Catalog} {root : String} {g : Group}

theorem modifyGroup_self (distinct : (c.groups.map Group.key).Nodup) (found : c.group? root = some g) :
    (c.modifyGroup root fun _ => g) = c := by
  obtain ⟨present,named⟩ := group?_some found
  have same : (c.groups.map fun x => if x.key == root then g else x) = c.groups := by
    refine Eq.trans (List.map_congr_left ?_) (List.map_id c.groups)
    intro x member
    split
    next inRoot =>
      exact (List.inj_on_of_nodup_map distinct member present
        ((beq_iff_eq.mp inRoot).trans named.symm)).symm
    next => rfl
  rw [modifyGroup,same]

/-- A group that is replaced may have been changed before. -/
theorem modifyGroup_modifyGroup {f : Group → Group} (keeps : ∀ g, (f g).key = g.key) :
    ((c.modifyGroup root f).modifyGroup root fun _ => g) = c.modifyGroup root fun _ => g := by
  simp only [modifyGroup,List.map_map,Catalog.mk.injEq,true_and,and_true]
  apply List.map_congr_left
  intro x _
  by_cases same : x.key = root <;> simp [same,keeps]

theorem changes_claimAll (u : Universe) (owner : String) (methods : List Selection)
    (distinct : (c.groups.map Group.key).Nodup) (found : c.group? root = some g) :
    Changes u c (c.modifyGroup root fun _ => (g.claimAll owner methods).1) := by
  induction methods generalizing c g with
  | nil =>
    rw [Group.claimAll,modifyGroup_self distinct found]
  | cons m rest ih =>
    let first (g : Group) : Group := g.claim m.name owner (!m.indirect)
    have keeps (g : Group) : (first g).key = g.key :=
      congrArg Descriptor.key (Group.claim_keeps g m.name owner (!m.indirect)).1
    have next : (c.modifyGroup root first).group? root = some (first g) := by
      rw [group?_modifyGroup c root keeps,if_pos rfl,found,Option.map_some]
    have later := ih (groupKeys_modifyGroup c root keeps ▸ distinct) next
    rw [modifyGroup_modifyGroup keeps] at later
    exact .head (.claim root m.name owner (!m.indirect)) later

theorem changes_claimMethods (u : Universe) (distinct : (c.groups.map Group.key).Nodup) (e : Entry)
    (methods : List Selection) : Changes u c (Walk.claimMethods c e methods).1 := by
  unfold Walk.claimMethods
  cases found : c.group? e.root with
  | none => exact .refl
  | some g => exact changes_claimAll u e.key _ distinct found

end Claims

section Spread
variable (u : Universe)

theorem changes_raiseAll (s : Status) (targets : List String) (c : Catalog) (raised : List String) :
    Changes u c (raiseAll s targets c raised).1 := by
  induction targets generalizing c raised with
  | nil => exact .refl
  | cons d rest ih =>
    simp only [raiseAll]
    split
    next => exact ih c raised
    next e _ =>
      split
      next => exact .head (.raise d (s.passedTo e.descriptor.kind)) (ih _ _)
      next => exact ih c raised

theorem changes_spread (c : Catalog) (stack : List String) (count : Nat) :
    Changes u c (spread c stack count).1 := by
  fun_induction spread c stack count with
  | case1 => exact .refl
  | case2 _ _ _ _ _ ih => exact ih
  | case3 _ _ _ _ _ _ _ ih => exact ih
  | case4 c _ source _ e _ _ step ih => exact (changes_raiseAll u e.status _ c []).trans ih

theorem changes_resolve (c : Catalog) : Changes u c c.resolve.1 := by
  have each (sources : List String) (start : Catalog × Nat) : Changes u start.1
      (sources.foldl (fun state source => spread state.1 [source] state.2) start).1 := by
    induction sources generalizing start with
    | nil => exact .refl
    | cons source rest ih => exact (changes_spread u start.1 [source] start.2).trans (ih _)
  exact each (c.sorted.map Entry.key) (c,0)

end Spread
end Catalog

namespace Walk
open Catalog

/-- The catalog of a walk is well formed and holds whoever mentions types. -/
structure Proper (u : Universe) (cfg : Config) : Prop where
  good : cfg.walk.catalog.WellFormed u
  dependent : ∀ d, cfg.dependent = some d → d ∈ cfg.walk.catalog.keys

section Steps
variable {u : Universe} {scope : List String} {cfg cfg' : Config}

theorem Proper.register {w : Walk} {c : Catalog} {t : TypeExpr} {stack stack' : List Item}
    {d : Option String} {turn turn' : Option Turn} {queue visited : List String}
    (proper : Proper u ⟨w,stack,d,turn⟩) (registered : w.catalog.register u t d = .ok c) :
    Proper u ⟨⟨c,queue,visited⟩,stack',d,turn'⟩ ∧ Changes u w.catalog c := by
  have change : Change u w.catalog c := .register t d proper.dependent registered
  exact ⟨⟨proper.good.change change,fun k target => change.mem_keys (proper.dependent k target)⟩,
    .single change⟩

/-- What a step does to the catalog is a sequence of single changes. -/
theorem Proper.step (proper : Proper u cfg) (step : Step u scope cfg cfg') :
    Proper u cfg' ∧ Changes u cfg.walk.catalog cfg'.walk.catalog := by
  cases step with
  | leave outside => exact ⟨⟨proper.good,proper.dependent⟩,.refl⟩
  | revisit inside registered visited => exact proper.register registered
  | visit inside registered fresh => exact proper.register registered
  | expand known => exact ⟨⟨proper.good,proper.dependent⟩,.refl⟩
  | @raise w key status _ _ _ error =>
    have change : Change u w.catalog (w.catalog.raise key status) := .raise key status
    refine ⟨⟨proper.good.change change,?_⟩,.single change⟩
    intro d target
    exact change.mem_keys (proper.dependent d target)
  | take value => exact ⟨⟨proper.good,proper.dependent⟩,.refl⟩
  | @start w key rest e methods queued found offered =>
    have changes := changes_claimMethods u proper.good.groupsDistinct e methods
    refine ⟨⟨proper.good.changes changes,?_⟩,changes⟩
    intro d target
    cases target
    have entries : (claimMethods w.catalog e methods).1.entries = w.catalog.entries :=
      (claimMethods_grants proper.good (entry?_some found).1
        (Universe.methodSet_nodup offered)).entries
    simp only [keys,entries]
    exact mem_keys_of_found found
  | @finish w key _ claimed =>
    have change : Change u w.catalog _ := .list key claimed
    refine ⟨⟨proper.good.change change,?_⟩,.single change⟩
    intro d target
    cases target
  | skip queued missing => exact ⟨⟨proper.good,proper.dependent⟩,.refl⟩

theorem Proper.steps (proper : Proper u cfg) (steps : Steps u scope cfg cfg') :
    Proper u cfg' ∧ Changes u cfg.walk.catalog cfg'.walk.catalog := by
  induction steps with
  | refl => exact ⟨proper,.refl⟩
  | tail _ last ih =>
    obtain ⟨middle,before⟩ := ih
    obtain ⟨after,changes⟩ := middle.step last
    exact ⟨after,before.trans changes⟩

theorem Leads.changes {result : Except Halt Walk} {dependent : Option String} {turn : Option Turn}
    (leads : Leads u scope cfg result dependent turn) (proper : Proper u cfg) :
    Changes u cfg.walk.catalog (ended result).catalog := by
  cases result with
  | ok w => exact (proper.steps leads).2
  | error h =>
    obtain ⟨last,steps,same⟩ := leads
    rw [ended,← same]
    exact (proper.steps steps).2

end Steps

/-- One call on a walk, finished or not. -/
inductive Call (u : Universe) (scope : List String) : Walk → Walk → Prop
  | seed {w} (root) : Call u scope w (ended (w.seed u scope root))
  | enqueue {w} (t dependent) (known : ∀ d, dependent = some d → d ∈ w.catalog.keys) :
      Call u scope w (ended (w.enqueue u scope t dependent))
  | drain {w} : Call u scope w (ended (w.drain u scope))

theorem Call.changes {u : Universe} {scope : List String} {w w' : Walk} (call : Call u scope w w')
    (good : w.catalog.WellFormed u) : Changes u w.catalog w'.catalog := by
  have idle (stack : List Item) : Proper u ⟨w,stack,none,none⟩ :=
    ⟨good,fun _ target => by cases target⟩
  cases call with
  | seed root =>
    simp only [Walk.seed]
    cases seedType u root with
    | error e => exact .refl
    | ok t => exact (enqueue_leads u scope t none w).changes (idle _)
  | enqueue t dependent known =>
    exact (enqueue_leads u scope t dependent w).changes ⟨good,known⟩
  | drain => exact (drain_leads u scope w).changes (idle _)

end Walk

namespace Catalog

/-- One operation on a catalog. A walk through it is a number of calls, of which any may fail; a type that
cannot be registered changes nothing. -/
inductive Operation (u : Universe) : Catalog → Catalog → Prop
  | register {c c'} (t dependent) (known : ∀ d, dependent = some d → d ∈ c.keys)
      (ok : c.register u t dependent = .ok c') : Operation u c c'
  | raise {c} (key s) : Operation u c (c.raise key s)
  | claim {c} (root method owner direct) :
      Operation u c (c.modifyGroup root fun g => g.claim method owner direct)
  | walk {c w} (scope) (calls : Relation.ReflTransGen (Walk.Call u scope) (Walk.start c) w) :
      Operation u c w.catalog
  | resolve {c} : Operation u c c.resolve.1

/-- The catalogs there can be. -/
def Grown (u : Universe) : Catalog → Prop := Relation.ReflTransGen (Operation u) empty

theorem Operation.changes {u : Universe} {c c' : Catalog} (operation : Operation u c c')
    (good : c.WellFormed u) : Changes u c c' := by
  cases operation with
  | register t dependent known ok => exact .single (.register t dependent known ok)
  | raise key s => exact .single (.raise key s)
  | claim root method owner direct => exact .single (.claim root method owner direct)
  | walk scope calls =>
    induction calls with
    | refl => exact .refl
    | tail _ last ih => exact ih.trans (last.changes (good.changes ih))
  | resolve => exact changes_resolve u c

/-- Each group lists each of its variants once, and describes the root type of one of them. -/
structure Founded (c : Catalog) : Prop where
  once : ∀ root, (c.membersOf root).Nodup
  described : ∀ g ∈ c.groups, ∃ e ∈ c.entries, e.root = g.key ∧
    g.descriptor.type = e.descriptor.type.root

theorem addEntry_groups {u : Universe} {c c' : Catalog} {t : TypeExpr} (ok : c.addEntry u t = .ok c')
    {g' : Group} (member : g' ∈ c'.groups) :
    (∃ g ∈ c.groups, g'.descriptor = g.descriptor) ∨ Descriptor.ofType u t.root = .ok g'.descriptor := by
  have added {c₁ : Catalog} (ok : c.addGroup u t = .ok c₁) {g : Group} (member : g ∈ c₁.groups) :
      g ∈ c.groups ∨ Descriptor.ofType u t.root = .ok g.descriptor := by
    unfold addGroup at ok
    split at ok
    next =>
      cases ok
      exact .inl member
    next =>
      split at ok
      next => cases ok
      next d known =>
        cases ok
        rcases List.mem_append.mp member with old | new
        · exact .inl old
        · rw [List.mem_singleton.mp new]
          exact .inr known
  unfold addEntry at ok
  split at ok
  next =>
    cases ok
    exact .inl ⟨g',member,rfl⟩
  next =>
    split at ok
    next => cases ok
    next d known =>
      split at ok
      next => cases ok
      next c₁ grouped =>
        cases ok
        obtain ⟨g,present,rfl⟩ := List.mem_map.mp member
        have same : (if g.key == t.root.key then { g with members := g.members ++ [t.key] }
            else g).descriptor = g.descriptor := by split <;> rfl
        rw [same]
        exact (added grouped present).imp_left fun old => ⟨g,old,rfl⟩

namespace Founded
variable {u : Universe} {c c' : Catalog}

theorem register (founded : c.Founded) (good : c.WellFormed u) {t : TypeExpr}
    {dependent : Option String} (ok : c.register u t dependent = .ok c') : c'.Founded := by
  obtain ⟨c₁,added,rfl⟩ := register_eq ok
  by_cases known : t.key ∈ c.keys
  · rw [addEntry_known known] at added
    cases added
    exact ⟨by simpa using founded.once,by simpa using founded.described⟩
  · have new := addEntry_new known added
    constructor
    · intro root
      rw [membersOf_link,new.members]
      by_cases same : root = t.root.key
      · rw [if_pos same]
        apply List.nodup_append.mpr
        refine ⟨founded.once root,by simp,?_⟩
        intro key present other isNew equal
        rw [equal,List.mem_singleton.mp isNew] at present
        obtain ⟨e,among,named,_⟩ := good.members root _ present
        exact known (named ▸ mem_keys among)
      · simpa [same] using founded.once root
    · intro g' member
      rw [groups_link] at member
      rw [entries_link]
      rcases addEntry_groups added member with ⟨g,old,same⟩ | described
      · obtain ⟨e,among,root,type⟩ := founded.described g old
        refine ⟨e,new.mem_entries among,?_,same ▸ type⟩
        rw [root,Group.key,Group.key,same]
      · obtain ⟨d,known,entries⟩ := new.entries
        refine ⟨⟨d,t.root.key,.none,[]⟩,by simp [entries],(ofType_key described).1.symm,?_⟩
        rw [(ofType_key described).2,(ofType_key known).2]

theorem modifyEntry (founded : c.Founded) (key : String) {f : Entry → Entry}
    (keeps : ∀ e, (f e).descriptor = e.descriptor ∧ (f e).root = e.root) :
    (c.modifyEntry key f).Founded where
  once := founded.once
  described := by
    intro g group
    obtain ⟨e,among,root,type⟩ := founded.described g group
    refine ⟨_,List.mem_map_of_mem among,?_⟩
    split
    · rw [(keeps e).1,(keeps e).2]
      exact ⟨root,type⟩
    · exact ⟨root,type⟩

theorem modifyGroup (founded : c.Founded) (root : String) {f : Group → Group}
    (keeps : ∀ g, (f g).descriptor = g.descriptor ∧ (f g).members = g.members) :
    (c.modifyGroup root f).Founded where
  once := by
    intro r
    rw [membersOf_modifyGroup c root keeps]
    exact founded.once r
  described := by
    intro g' member
    obtain ⟨g,group,rfl⟩ := List.mem_map.mp member
    have same : (if g.key == root then f g else g).descriptor = g.descriptor := by
      split
      · exact (keeps g).1
      · rfl
    rw [Group.key,same]
    exact founded.described g group

theorem change (founded : c.Founded) (good : c.WellFormed u) (change : Change u c c') : c'.Founded := by
  cases change with
  | register t dependent known ok => exact founded.register good ok
  | raise key s => exact founded.modifyEntry key fun e => raise_keeps e s
  | list key methods => exact founded.modifyEntry key fun _ => ⟨rfl,rfl⟩
  | claim root method owner direct =>
    exact founded.modifyGroup root fun g => Group.claim_keeps g method owner direct

theorem changes (founded : c.Founded) (good : c.WellFormed u) (changes : Changes u c c') :
    c'.Founded := by
  induction changes with
  | refl => exact founded
  | tail before last ih => exact ih.change (good.changes before) last

end Founded

namespace Grown
variable {u : Universe} {c : Catalog}

theorem changes (grown : Grown u c) : Changes u empty c := by
  induction grown with
  | refl => exact .refl
  | tail _ last ih => exact ih.trans (last.changes ((wellFormed_empty u).changes ih))

theorem wellFormed (grown : Grown u c) : c.WellFormed u := (wellFormed_empty u).changes grown.changes

theorem founded (grown : Grown u c) : c.Founded := by
  have empty : empty.Founded :=
    ⟨fun _ => List.nodup_nil,fun _ member => absurd member List.not_mem_nil⟩
  exact empty.changes (wellFormed_empty u) grown.changes

/-- An analysis is a walk through the empty catalog, after which statuses are spread. -/
theorem of_run {root : TypeExpr} {packages : List String} {a : Analysis}
    (ok : Analysis.run u root packages = .ok a) : Grown u a.catalog := by
  unfold Analysis.run at ok
  cases walked : Analysis.walk u root packages with
  | error h => simp [walked] at ok
  | ok w =>
    simp only [walked,Except.ok.injEq] at ok
    subst ok
    unfold Analysis.walk at walked
    cases begins : (Walk.start .empty).seed u (Analysis.scopeOf root packages) root with
    | error h => simp [begins] at walked
    | ok w₀ =>
      simp only [begins] at walked
      have seeded : Walk.Call u (Analysis.scopeOf root packages) (.start .empty) (Walk.ended (.ok w₀)) := by
        rw [← begins]
        exact .seed root
      have drained : Walk.Call u (Analysis.scopeOf root packages) w₀ (Walk.ended (.ok w)) := by
        rw [← walked]
        exact .drain
      have found : Operation u empty w.catalog :=
        .walk (Analysis.scopeOf root packages) (.head seeded (.single drained))
      exact .head found (.single .resolve)

end Grown
end Catalog
end ProxyGen
