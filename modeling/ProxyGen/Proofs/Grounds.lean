import Mathlib.Data.List.Chain
import ProxyGen.Proofs.Edges

/-! Why a type has a proxy. From it a chain of types leads to one that lists an exported method with an error
result; each type of the chain has a listed method that returns the next, or something that contains
it. No status falls along the edges, so the chain of a soft proxy runs through interfaces alone. -/
namespace ProxyGen

namespace Entry

/-- A listed method returns the other type, or something in which it is found. -/
def Leads (u : Universe) (scope : List String) (e e' : Entry) : Prop :=
  ∃ r x, e.Results r ∧ Walk.inScope scope r = true ∧ Walk.Contains u scope r x ∧ x.key = e'.key

def Errs (e : Entry) : Prop :=
  ∃ m ∈ e.methods, m.exported = true ∧ ∃ r ∈ m.signature.results, r.type.isError = true

end Entry

/-- A chain of entries that explains why the first of them has a proxy. -/
structure Grounds (u : Universe) (scope : List String) (c : Catalog) (e : Entry)
    (chain : List Entry) : Prop where
  known : ∀ x ∈ chain, x ∈ c.entries
  first : chain.head? = some e
  linked : chain.IsChain (Entry.Leads u scope)
  last : ∃ x, chain.getLast? = some x ∧ x.Errs

namespace Grounds
variable {u : Universe} {scope : List String} {c : Catalog} {e next : Entry} {chain : List Entry}

theorem of_errs (member : e ∈ c.entries) (errs : e.Errs) : Grounds u scope c e [e] where
  known x inside := by
    rw [List.mem_singleton.mp inside]
    exact member
  first := rfl
  linked := .singleton e
  last := ⟨e,rfl,errs⟩

theorem cons (grounds : Grounds u scope c next chain) (member : e ∈ c.entries)
    (leads : e.Leads u scope next) : Grounds u scope c e (e :: chain) where
  known x inside := by
    rcases List.mem_cons.mp inside with rfl | later
    · exact member
    · exact grounds.known x later
  first := rfl
  linked := by
    refine grounds.linked.cons ?_
    intro x head
    rw [grounds.first] at head
    cases head
    exact leads
  last := by
    obtain ⟨x,ends,errs⟩ := grounds.last
    exact ⟨x,by simp [List.getLast?_cons,ends],errs⟩

end Grounds

namespace Analysis
namespace Finished
variable {u : Universe} {scope begun : List String} {a : Analysis} {w : Walk}

theorem errs_of_listed (finished : Finished u scope a w) {e : Entry} (member : e ∈ a.catalog.entries)
    (error : ∃ m ∈ e.methods, ∃ r ∈ m.signature.results, r.type.isError = true) : e.Errs := by
  obtain ⟨m,listed,result⟩ := error
  obtain ⟨before,after,split⟩ := List.append_of_mem member
  obtain ⟨⟨_,_,_,exported⟩,_⟩ := (finished.listed_iff split m).mp listed
  exact ⟨m,listed,exported,result⟩

theorem leads_of_edge (finished : Finished u scope a w) (linked : Linked u scope begun a.catalog)
    {e source : Entry} (member : e ∈ a.catalog.entries)
    (edge : (source.key,e.key) ∈ a.catalog.edges) : e.Leads u scope source := by
  obtain ⟨x,named,_,⟨e',present,same,r,result,inside,contained⟩,_⟩ := linked.edges _ _ edge
  obtain rfl := Catalog.entry_unique finished.distinct present member same
  exact ⟨r,x,result,inside,contained,named⟩

/-- Along the edges from a type that errs, each type is explained by the one before. -/
theorem grounds_of_reaches (finished : Finished u scope a w) (linked : Linked u scope begun a.catalog)
    {source : Entry} (known : source ∈ a.catalog.entries)
    (error : ∃ m ∈ source.methods, ∃ r ∈ m.signature.results, r.type.isError = true) {key : String}
    (path : a.catalog.Reaches source.key key) {e : Entry} (member : e ∈ a.catalog.entries)
    (named : e.key = key) : ∃ chain, Grounds u scope a.catalog e chain ∧
      ∀ x ∈ chain, x.status ≠ .none ∧ x.status ≤ e.status := by
  induction path generalizing e with
  | refl =>
    obtain rfl := Catalog.entry_unique finished.distinct member known named
    have wrapped := (finished.wrapped_iff member).mpr ⟨e,member,error,.refl⟩
    refine ⟨[e],.of_errs member (finished.errs_of_listed member error),?_⟩
    intro x inside
    rw [List.mem_singleton.mp inside]
    exact ⟨wrapped,le_refl _⟩
  | @tail middle _ before edge ih =>
    subst named
    have present : middle ∈ a.catalog.keys := by
      rw [finished.keys]
      exact (finished.orderly.sound.good.joined _ _ (finished.edges ▸ edge)).1
    obtain ⟨m,inside,rfl⟩ := List.mem_map.mp present
    obtain ⟨chain,grounds,statuses⟩ := ih inside rfl
    have below : m.status ≤ e.status :=
      le_trans (Status.le_effective _ _) (finished.met inside member edge)
    have wrapped := (finished.wrapped_iff member).mpr ⟨source,known,error,before.tail edge⟩
    refine ⟨e :: chain,grounds.cons member (finished.leads_of_edge linked member edge),?_⟩
    intro x among
    rcases List.mem_cons.mp among with rfl | later
    · exact ⟨wrapped,le_refl _⟩
    · exact ⟨(statuses x later).1,le_trans (statuses x later).2 below⟩

end Finished

/-- Every proxy has grounds, and the chain of a soft one runs through interfaces. -/
theorem grounds_of_wrapped {u : Universe} {root : TypeExpr} {packages : List String} {a : Analysis}
    (ok : run u root packages = .ok a) {e : Entry} (member : e ∈ a.catalog.entries)
    (wrapped : e.status ≠ .none) : ∃ chain, Grounds u (scopeOf root packages) a.catalog e chain ∧
      (e.status = .soft → ∀ x ∈ chain, x.descriptor.kind = .interface) := by
  obtain ⟨w,finished⟩ := finished_of_run ok
  obtain ⟨_,_,linked⟩ := linked_of_run ok
  obtain ⟨source,known,error,path⟩ := (finished.wrapped_iff member).mp wrapped
  obtain ⟨chain,grounds,statuses⟩ := finished.grounds_of_reaches linked known error path member rfl
  refine ⟨chain,grounds,?_⟩
  intro isSoft x inside
  obtain ⟨some,below⟩ := statuses x inside
  rw [isSoft] at below
  exact finished.soft x (grounds.known x inside) (Status.eq_soft some below)

/-- The gate is soft because of the port, which is what its `Pass` returns. -/
theorem hub_grounds :
    run Hub.types (.named Hub.hub) [] = .ok ⟨Hub.catalog .hard .soft,6,2⟩ ∧
      Hub.gateEntry .soft ∈ (Hub.catalog .hard .soft).entries ∧ (Hub.gateEntry .soft).status ≠ .none ∧
      ∃ chain, Grounds Hub.types (scopeOf (.named Hub.hub) []) (Hub.catalog .hard .soft)
        (Hub.gateEntry .soft) chain ∧ ∀ x ∈ chain, x.descriptor.kind = .interface := by
  have member : Hub.gateEntry .soft ∈ (Hub.catalog .hard .soft).entries := by simp [Hub.catalog]
  have wrapped : (Hub.gateEntry .soft).status ≠ .none := by decide
  obtain ⟨chain,grounds,interfaces⟩ := grounds_of_wrapped Hub.run_types member wrapped
  exact ⟨Hub.run_types,member,wrapped,chain,grounds,interfaces rfl⟩

end Analysis
end ProxyGen
