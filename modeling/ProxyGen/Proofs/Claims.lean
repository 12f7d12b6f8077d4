import ProxyGen.Lookup
import ProxyGen.Proofs.MethodNames
import ProxyGen.Proofs.Registration
import ProxyGen.Walk.Classification

/-! What claiming the methods of a type does. The methods of one type have different names, so each of them
is granted by what was held before the type's turn, and only the names that were granted change hands. -/
namespace ProxyGen

/-- A name can be had: it is free, or it is held indirectly and asked for directly. -/
def Claim.Open (held : Option Claim) (direct : Bool) : Prop :=
  ∀ c, held = some c → c.direct = false ∧ direct = true

namespace Group

/-- A group before and after a type has claimed its methods. -/
structure Grants (owner : String) (methods : List Selection) (g g' : Group)
    (granted : List Selection) : Prop where
  descriptor : g'.descriptor = g.descriptor
  members : g'.members = g.members
  open_iff : ∀ m, m ∈ granted ↔ m ∈ methods ∧ Claim.Open (g.claim? m.name) (!m.indirect)
  taken : ∀ m ∈ granted, g'.claim? m.name = some ⟨owner,!m.indirect⟩
  kept : ∀ name, (∀ m ∈ granted, m.name ≠ name) → g'.claim? name = g.claim? name

theorem yields_iff {g : Group} {method : String} {direct : Bool} :
    g.yields method direct = true ↔ Claim.Open (g.claim? method) direct := by
  unfold yields Claim.Open
  cases g.claim? method with
  | none => simp
  | some c => simp

theorem claim?_claim_self {g : Group} {method owner : String} {direct : Bool}
    (yields : g.yields method direct = true) :
    (g.claim method owner direct).claim? method = some ⟨owner,direct⟩ := by
  simp [claim,claim?,yields]

theorem claim?_claim_other (g : Group) {method name : String} (owner : String) (direct : Bool)
    (other : name ≠ method) : (g.claim method owner direct).claim? name = g.claim? name := by
  unfold claim
  split
  · exact (lookup_cons_other other _ _).trans (lookup_filter_ne other)
  · rfl

theorem claim_keeps (g : Group) (method owner : String) (direct : Bool) :
    (g.claim method owner direct).descriptor = g.descriptor ∧
      (g.claim method owner direct).members = g.members := by
  unfold claim
  split <;> exact ⟨rfl,rfl⟩

namespace Grants
variable {owner : String} {m : Selection} {rest granted : List Selection} {g g' : Group}

/-- A method that is granted is claimed before the others, of which none has its name. -/
theorem grant (fresh : ∀ x ∈ rest, x.name ≠ m.name) (yields : g.yields m.name (!m.indirect) = true)
    (grants : Grants owner rest (g.claim m.name owner (!m.indirect)) g' granted) :
    Grants owner (m :: rest) g g' (m :: granted) := by
  have first : Claim.Open (g.claim? m.name) (!m.indirect) := yields_iff.mp yields
  have keeps := claim_keeps g m.name owner (!m.indirect)
  have later (x : Selection) : x ∈ granted ↔ x ∈ rest ∧ Claim.Open (g.claim? x.name) (!x.indirect) := by
    rw [grants.open_iff]
    apply and_congr_right
    intro member
    rw [claim?_claim_other g owner _ (fresh x member)]
  refine ⟨grants.descriptor.trans keeps.1,grants.members.trans keeps.2,?_,?_,?_⟩
  · intro x
    rw [List.mem_cons,List.mem_cons,later,or_and_right]
    apply or_congr_left
    constructor
    · rintro rfl
      exact ⟨rfl,first⟩
    · exact And.left
  · intro x member
    rcases List.mem_cons.mp member with rfl | member
    · -- No later method has this name, so the claim stands.
      rw [grants.kept x.name fun y inside => fresh y ((later y).mp inside).1]
      exact claim?_claim_self yields
    · exact grants.taken x member
  · intro name absent
    rw [grants.kept name fun y inside => absent y (List.mem_cons_of_mem _ inside)]
    exact claim?_claim_other g owner _ (absent m List.mem_cons_self).symm

/-- A method that is refused leaves everything to the others. -/
theorem refuse (refused : ¬ Claim.Open (g.claim? m.name) (!m.indirect)) (grants : Grants owner rest g g' granted) :
    Grants owner (m :: rest) g g' granted := by
  refine ⟨grants.descriptor,grants.members,?_,grants.taken,grants.kept⟩
  intro x
  rw [grants.open_iff,List.mem_cons]
  constructor
  · rintro ⟨member,isOpen⟩
    exact ⟨.inr member,isOpen⟩
  · rintro ⟨rfl | member,isOpen⟩
    · exact absurd isOpen refused
    · exact ⟨member,isOpen⟩

end Grants

theorem claimAll_grants (owner : String) {methods : List Selection} (g : Group)
    (distinct : (Universe.names methods).Nodup) :
    Grants owner methods g (g.claimAll owner methods).1 (g.claimAll owner methods).2 := by
  induction methods generalizing g with
  | nil => exact ⟨rfl,rfl,by simp [claimAll],by simp [claimAll],fun _ _ => rfl⟩
  | cons m rest ih =>
    obtain ⟨fresh,later⟩ := List.nodup_cons.mp distinct
    cases yields : g.yields m.name (!m.indirect) with
    | true =>
      simp only [claimAll,yields,if_true]
      refine (ih _ later).grant ?_ yields
      intro x member same
      exact fresh (same ▸ List.mem_map_of_mem member)
    | false =>
      simp only [claimAll,yields,Bool.false_eq_true,if_false]
      have same : g.claim m.name owner (!m.indirect) = g := by simp [claim,yields]
      rw [same]
      apply (ih g later).refuse
      rw [← yields_iff,yields]
      exact Bool.false_ne_true

end Group

namespace Walk

/-- A catalog before and after the type of an entry has claimed its methods. -/
structure Grants (c : Catalog) (e : Entry) (methods : List Selection) (c' : Catalog)
    (granted : List Selection) : Prop where
  entries : c'.entries = c.entries
  edges : c'.edges = c.edges
  open_iff : ∀ m, m ∈ granted ↔
    m ∈ methods ∧ m.exported = true ∧ Claim.Open (c.claim? e.root m.name) (!m.indirect)
  taken : ∀ m ∈ granted, c'.claim? e.root m.name = some ⟨e.key,!m.indirect⟩
  kept : ∀ root name, (root = e.root → ∀ m ∈ granted, m.name ≠ name) →
    c'.claim? root name = c.claim? root name

theorem Grants.entry?_eq {c c' : Catalog} {e : Entry} {methods granted : List Selection}
    (grants : Grants c e methods c' granted) (key : String) : c'.entry? key = c.entry? key := by
  simp [Catalog.entry?,grants.entries]

/-- A name is held by the type that was granted it, or as before. -/
theorem Grants.claim_cases {c c' : Catalog} {e : Entry} {methods granted : List Selection}
    (grants : Grants c e methods c' granted) (root name : String) :
    (root = e.root ∧ ∃ m ∈ granted, m.name = name ∧
      c'.claim? root name = some ⟨e.key,!m.indirect⟩) ∨
    ((root = e.root → ∀ m ∈ granted, m.name ≠ name) ∧ c'.claim? root name = c.claim? root name) := by
  by_cases given : root = e.root ∧ ∃ m ∈ granted, m.name = name
  · obtain ⟨rfl,m,inside,rfl⟩ := given
    exact .inl ⟨rfl,m,inside,rfl,grants.taken m inside⟩
  · have free : root = e.root → ∀ m ∈ granted, m.name ≠ name := by
      intro inRoot m inside equal
      exact given ⟨inRoot,m,inside,equal⟩
    exact .inr ⟨free,grants.kept root name free⟩

/-- Only the claims of the group change. -/
theorem claimMethods_eq {u : Universe} {c : Catalog} (good : c.WellFormed u) {e : Entry}
    {g : Group} (found : c.group? e.root = some g) {methods : List Selection}
    (distinct : (Universe.names methods).Nodup) :
    ∃ g' granted, Group.Grants e.key (methods.filter Selection.exported) g g' granted ∧
      claimMethods c e methods =
        (c.modifyGroup e.root fun x => { x with claims := g'.claims }, granted) := by
  have exported : (Universe.names (methods.filter Selection.exported)).Nodup :=
    distinct.sublist (List.filter_sublist.map Selection.name)
  have grants := Group.claimAll_grants e.key g exported
  refine ⟨_,_,grants,?_⟩
  simp only [claimMethods,found,Catalog.modifyGroup,Prod.mk.injEq,Catalog.mk.injEq,and_true,
    true_and]
  apply List.map_congr_left
  intro x member
  split
  next inRoot =>
    obtain ⟨present,key⟩ := Catalog.group?_some found
    have same : x = g := List.inj_on_of_nodup_map good.groupsDistinct member present
      ((beq_iff_eq.mp inRoot).trans key.symm)
    rw [same,← grants.descriptor,← grants.members]
  next => rfl

theorem claimMethods_grants {u : Universe} {c : Catalog} (good : c.WellFormed u) {e : Entry}
    (member : e ∈ c.entries) {methods : List Selection}
    (distinct : (Universe.names methods).Nodup) :
    Grants c e methods (claimMethods c e methods).1 (claimMethods c e methods).2 := by
  obtain ⟨g,found,_⟩ := good.group_of_mem member
  obtain ⟨g',granted,grants,equal⟩ := claimMethods_eq good found distinct
  have view (root : String) : (claimMethods c e methods).1.group? root =
      if root = e.root then (c.group? root).map fun x => { x with claims := g'.claims }
      else c.group? root := by
    rw [equal]
    exact Catalog.group?_modifyGroup c e.root (f := fun x => { x with claims := g'.claims })
      (fun _ => rfl) root
  have here (name : String) :
      (claimMethods c e methods).1.claim? e.root name = g'.claim? name := by
    simp [Catalog.claim?,view,found,Group.claim?]
  have before (name : String) : c.claim? e.root name = g.claim? name := by
    simp [Catalog.claim?,found]
  constructor
  · rw [equal]
    rfl
  · rw [equal]
    rfl
  · intro m
    rw [equal,before,grants.open_iff,List.mem_filter,and_assoc]
  · intro m inside
    rw [here]
    rw [equal] at inside
    exact grants.taken m inside
  · intro root name untouched
    by_cases same : root = e.root
    · subst same
      rw [here,before]
      apply grants.kept
      rw [equal] at untouched
      exact untouched rfl
    · simp [Catalog.claim?,view,same]

theorem wellFormed_claimMethods {u : Universe} {c : Catalog} (good : c.WellFormed u) {e : Entry}
    (member : e ∈ c.entries) {methods : List Selection}
    (distinct : (Universe.names methods).Nodup) :
    (claimMethods c e methods).1.WellFormed u := by
  obtain ⟨g,found,_⟩ := good.group_of_mem member
  obtain ⟨g',granted,_,equal⟩ := claimMethods_eq good found distinct
  rw [equal]
  exact good.modifyGroup e.root fun _ => ⟨rfl,rfl⟩

end Walk
end ProxyGen
