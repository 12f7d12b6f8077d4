import ProxyGen.Proofs.Mentions
import ProxyGen.Proofs.Softness

/-! The edges of a finished analysis. An edge leads to a type from each result of the methods it lists, and
from the parts of those types that it was the first to mention; what else such a result contains has an
edge only to others. -/
namespace ProxyGen

namespace Walk

theorem queueAll_edges {u : Universe} {scope : List String} {stack : List TypeExpr} {w w' : Walk}
    (ok : w.queueAll u scope none stack = .ok w') : w'.catalog.edges = w.catalog.edges := by
  have registered {c c' : Catalog} {t : TypeExpr} (ok : c.register u t none = .ok c') :
      c'.edges = c.edges := by
    rcases Catalog.register_cases ok with ⟨_,rfl⟩ | ⟨_,c₁,new,rfl⟩
    · rfl
    · exact new.edges
  fun_induction queueAll u scope none stack w with
  | case1 w =>
    cases ok
    rfl
  | case2 => cases ok
  | case3 w t rest inside c known visited ih => exact (ih ok).trans (registered known)
  | case4 => cases ok
  | case5 w t rest inside c known fresh w₁ ts parts ih => exact (ih ok).trans (registered known)
  | case6 w t rest outside ih => exact ih ok

theorem Orderly.traced {u : Universe} {scope begun : List String} {cfg cfg' : Config}
    (orderly : Orderly u scope cfg) (traced : Traced u scope begun cfg) (steps : Steps u scope cfg cfg') :
    Traced u scope begun cfg' := by
  induction steps with
  | refl => exact traced
  | tail before last ih =>
    have middle := orderly.steps before
    exact ih.step middle.sound middle.explored middle.accounted last

/-- The first types are queued on nobody's behalf. All that comes later is mentioned by somebody. -/
theorem traced_of_walk {u : Universe} {root : TypeExpr} {packages : List String} {w : Walk}
    (walked : Analysis.walk u root packages = .ok w) :
    ∃ w₀, (start .empty).seed u (Analysis.scopeOf root packages) root = .ok w₀ ∧
      Traced u (Analysis.scopeOf root packages) w₀.visited ⟨w,[],none,none⟩ := by
  unfold Analysis.walk at walked
  cases begins : (start .empty).seed u (Analysis.scopeOf root packages) root with
  | error h => simp [begins] at walked
  | ok w₀ =>
    simp only [begins] at walked
    refine ⟨w₀,rfl,?_⟩
    unfold seed at begins
    cases seeded : seedType u root with
    | error e => simp [seeded] at begins
    | ok t =>
      simp only [seeded,enqueue] at begins
      have first := queueAll_leads u (Analysis.scopeOf root packages) none none [t] (start .empty)
      rw [begins] at first
      have orderly := (Orderly.start u _ t).steps first
      have later := drain_leads u (Analysis.scopeOf root packages) w₀
      rw [walked] at later
      have unlinked : w₀.catalog.edges = [] := queueAll_edges begins
      have unmentioned (key : String) : w₀.catalog.firstDependent key = none :=
        Catalog.firstDependent_none (by simp [unlinked])
      have known : ∀ e ∈ Config.ledger ⟨w₀,[],none,none⟩, e.key ∈ w₀.visited := by
        intro e member
        apply orderly.explored.mem_keys_iff.mp
        rw [← ledger_keys]
        exact List.mem_map_of_mem member
      refine orderly.traced ⟨?_,fun _ => rfl,?_,?_,?_,?_,?_⟩ later
      · intro key present
        exact orderly.explored.mem_keys_iff.mpr present
      · intro key d edge
        simp [unlinked] at edge
      · intro d target
        cases target
      · intro d target
        cases target
      · intro e member later
        exact absurd (known e member) later
      · intro e member later
        exact absurd (known e member) later

end Walk

namespace Catalog

theorem comesFrom_ledger {u : Universe} {scope : List String} {c : Catalog} {d : String} {t : TypeExpr} :
    Walk.ComesFrom u scope c.ledger d t ↔ Walk.ComesFrom u scope c.entries d t := by
  simp [Walk.ComesFrom,ledger,Entry.key,Entry.Results]

theorem introduced_ledger {u : Universe} {begun : List String} {first : String → Option String}
    {c : Catalog} {d : String} {t : TypeExpr} :
    Walk.Introduced u begun first c.ledger d t ↔ Walk.Introduced u begun first c.entries d t := by
  simp [Walk.Introduced,ledger,Entry.key,Entry.Results]

end Catalog

namespace Analysis
open Walk

/-- Where the edges of a finished analysis come from whose walk began with the types of `begun`. -/
structure Linked (u : Universe) (scope begun : List String) (c : Catalog) : Prop where
  edges : ∀ key d, (key,d) ∈ c.edges → ∃ t, t.key = key ∧ inScope scope t = true ∧
    ComesFrom u scope c.entries d t ∧ Introduced u begun c.firstDependent c.entries d t
  parts : ∀ e ∈ c.entries, e.key ∉ begun → ∀ d, c.firstDependent e.key = some d →
    ∀ t, Part u e.descriptor.type t → inScope scope t = true → (t.key,d) ∈ c.edges

theorem linked_of_run {u : Universe} {root : TypeExpr} {packages : List String} {a : Analysis}
    (ok : run u root packages = .ok a) :
    ∃ w₀, (start .empty).seed u (scopeOf root packages) root = .ok w₀ ∧
      Linked u (scopeOf root packages) w₀.visited a.catalog := by
  obtain ⟨w,walked,rfl⟩ := walk_of_run ok
  have finished := finished_of_walk walked
  obtain ⟨w₀,begins,traced⟩ := traced_of_walk walked
  have ledger : Config.ledger ⟨w,[],none,none⟩ = w.catalog.resolve.1.ledger := by
    rw [Catalog.ledger_of_idle]
    exact finished.ledger.symm
  have first : w.catalog.firstDependent = w.catalog.resolve.1.firstDependent :=
    Catalog.firstDependent_congr finished.edges.symm
  refine ⟨w₀,begins,?_,?_⟩
  · intro key d edge
    obtain ⟨t,named,inside,source,near⟩ := traced.edges key d (finished.edges ▸ edge)
    rw [ledger,Catalog.comesFrom_ledger] at source
    rw [ledger,first,Catalog.introduced_ledger] at near
    exact ⟨t,named,inside,source,near⟩
  · intro e member later d found t part inside
    have listed := Catalog.mem_ledger member
    rw [← ledger] at listed
    rcases traced.followed _ listed later d (first ▸ found) with ⟨target,_⟩ | covered
    · cases target
    · rcases covered t part inside with edge | ⟨target,_⟩
      · rw [finished.edges]
        exact edge
      · cases target

/-- An edge leads to a type exactly from what its listed methods return, and from the parts of what it was the
first to mention. -/
theorem edges_iff_introduced {u : Universe} {root : TypeExpr} {packages : List String} {a : Analysis}
    (ok : run u root packages = .ok a) :
    ∃ w₀, (start .empty).seed u (scopeOf root packages) root = .ok w₀ ∧ ∀ e ∈ a.catalog.entries,
      (∀ key, (key,e.key) ∈ a.catalog.edges ↔ ∃ t, t.key = key ∧
        inScope (scopeOf root packages) t = true ∧
        Introduced u w₀.visited a.catalog.firstDependent a.catalog.entries e.key t) ∧
      ∀ source ∈ a.catalog.entries, (source.key,e.key) ∈ a.catalog.edges →
        source.status ≠ .none → e.status ≠ .none := by
  obtain ⟨w₀,begins,linked⟩ := linked_of_run ok
  obtain ⟨w,finished⟩ := finished_of_run ok
  refine ⟨w₀,begins,fun e member => ⟨fun key => ⟨?_,?_⟩,?_⟩⟩
  · intro edge
    obtain ⟨t,named,inside,_,near⟩ := linked.edges key e.key edge
    exact ⟨t,named,inside,near⟩
  · rintro ⟨t,rfl,inside,near⟩
    rcases near with ⟨e',present,same,m,listed,r,result,value,rfl⟩ | ⟨e',present,later,first,part⟩
    · have answered := finished.answered present listed result
      unfold Catalog.Answered at answered
      rw [value,if_neg Bool.false_ne_true,same] at answered
      exact (answered inside).2
    · exact linked.parts e' present later e.key first t part inside
  · intro source present edge wrapped blank
    have reached := finished.met present member edge
    rw [blank] at reached
    exact wrapped (Catalog.effective_none (Catalog.eq_none reached))

theorem hub_edges :
    run Hub.types (.named Hub.hub) [] = .ok ⟨Hub.catalog .hard .soft,6,2⟩ ∧
      ∃ w₀, (start .empty).seed Hub.types (scopeOf (.named Hub.hub) []) (.named Hub.hub) = .ok w₀ ∧
        ∀ e ∈ (Hub.catalog .hard .soft).entries,
          (∀ key, (key,e.key) ∈ (Hub.catalog .hard .soft).edges ↔ ∃ t, t.key = key ∧
            inScope (scopeOf (.named Hub.hub) []) t = true ∧
            Introduced Hub.types w₀.visited (Hub.catalog .hard .soft).firstDependent
              (Hub.catalog .hard .soft).entries e.key t) ∧
          ∀ source ∈ (Hub.catalog .hard .soft).entries,
            (source.key,e.key) ∈ (Hub.catalog .hard .soft).edges →
              source.status ≠ .none → e.status ≠ .none :=
  ⟨Hub.run_types,edges_iff_introduced Hub.run_types⟩

/-- The shelf returns items too. The hub has mentioned them before, so no edge leads from the item to the
shelf, and the shelf goes without a proxy although the item it hands out needs one. -/
theorem hub_unlinked :
    run Hub.types (.named Hub.hub) [] = .ok ⟨Hub.catalog .hard .soft,6,2⟩ ∧
      Hub.shelfEntry ∈ (Hub.catalog .hard .soft).entries ∧
      Hub.itemEntry ∈ (Hub.catalog .hard .soft).entries ∧
      Hub.shelfEntry.Results Hub.items ∧
      inScope (scopeOf (.named Hub.hub) []) Hub.items = true ∧
      Contains Hub.types (scopeOf (.named Hub.hub) []) Hub.items (.named Hub.item) ∧
      Hub.itemEntry.key = (TypeExpr.named Hub.item).key ∧
      (Hub.itemEntry.key,Hub.shelfEntry.key) ∉ (Hub.catalog .hard .soft).edges ∧
      Hub.itemEntry.status = .hard ∧ Hub.shelfEntry.status = .none := by
  refine ⟨Hub.run_types,by simp [Hub.catalog],by simp [Hub.catalog],?_,by decide,?_,by decide,by decide,
    rfl,rfl⟩
  · exact ⟨_,List.mem_cons_self,⟨none,Hub.items⟩,List.mem_cons_self,rfl,rfl⟩
  · exact .single ⟨.inl List.mem_cons_self,by decide⟩

end Analysis
end ProxyGen
