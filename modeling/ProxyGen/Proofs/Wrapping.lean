import Mathlib.Logic.Relation
import ProxyGen.Proofs.Completeness

/-! Which types need a proxy in the end: those that list a method with an error result, and those that edges
lead to from such a type. An error method that an earlier variant bars does not count, so a type can
offer one and go without a proxy. -/
namespace ProxyGen

namespace Catalog

def Reaches (c : Catalog) : String → String → Prop :=
  Relation.ReflTransGen fun source dependent => (source,dependent) ∈ c.edges

theorem effective_none {s : Status} {kind : Kind} (blank : s.effective kind = .none) : s = .none := by
  cases s <;> cases kind <;> first | rfl | cases blank

theorem eq_none {s : Status} (below : s ≤ .none) : s = .none := le_antisymm below (Status.none_le s)

/-- Statuses spread along edges and come from nowhere else. -/
theorem least_ne_none_iff {c : Catalog} {after : String → Status}
    (joined : ∀ source dependent, (source,dependent) ∈ c.edges → dependent ∈ c.keys)
    (least : IsLeast {status | c.statusOf ≤ status ∧ c.Closed status} after) (key : String) :
    after key ≠ .none ↔ ∃ source, c.statusOf source ≠ .none ∧ c.Reaches source key := by
  obtain ⟨⟨above,closed⟩,below⟩ := least
  constructor
  · intro wrapped
    by_contra apart
    classical
    -- Taking the status of all that is not reached leaves the rest closed.
    let reached (k : String) : Prop := ∃ source, c.statusOf source ≠ .none ∧ c.Reaches source k
    let bound (k : String) : Status := if reached k then after k else .none
    have start : c.statusOf ≤ bound := by
      intro k
      by_cases inside : reached k
      · rw [show bound k = after k from if_pos inside]
        exact above k
      · have blank : c.statusOf k = .none := by
          by_contra present
          exact inside ⟨k,present,.refl⟩
        rw [blank]
        exact Status.none_le _
    have met : c.Closed bound := by
      intro source dependent edge e found
      by_cases inside : reached source
      · obtain ⟨first,present,path⟩ := inside
        have next : reached dependent := ⟨first,present,path.tail edge⟩
        rw [show bound source = after source from if_pos ⟨first,present,path⟩,
          show bound dependent = after dependent from if_pos next]
        exact closed source dependent edge e found
      · rw [show bound source = .none from if_neg inside]
        exact Status.none_le _
    have limit := below ⟨start,met⟩ key
    rw [show bound key = .none from if_neg apart] at limit
    exact wrapped (eq_none limit)
  · rintro ⟨source,present,path⟩
    induction path with
    | refl =>
      intro blank
      have reached := above source
      rw [blank] at reached
      exact present (eq_none reached)
    | @tail middle last _ edge ih =>
      intro blank
      cases found : c.entry? last with
      | none => exact entry?_none.mp found (joined middle last edge)
      | some e =>
        have reached := closed middle last edge e found
        rw [blank] at reached
        exact ih (effective_none (eq_none reached))

end Catalog

/-- The type has an exported method with an error result. -/
def Entry.OffersError (u : Universe) (e : Entry) : Prop :=
  ∃ m, e.Offers u m ∧ ∃ r ∈ m.signature.results, r.type.isError = true

/-- No variant that was found before bars the type from an exported method with an error result. -/
def Catalog.ErrsAt (u : Universe) (c : Catalog) (e : Entry) : Prop :=
  ∃ before after, c.entries = before ++ e :: after ∧ ∃ m, e.Offers u m ∧
    ¬ e.Barred u before m ∧ ∃ r ∈ m.signature.results, r.type.isError = true

namespace Analysis

theorem errorStatus_ne_none {kind : Kind} {methods : List Selection} {s : Status}
    (reached : Walk.errorStatus kind methods ≤ s) : s ≠ .none := by
  rintro rfl
  unfold Walk.errorStatus at reached
  split at reached <;> cases Catalog.eq_none reached

namespace Finished
variable {u : Universe} {scope : List String} {a : Analysis} {w : Walk}

theorem listed_iff (finished : Finished u scope a w) {before after : List Entry} {e : Entry}
    (split : a.catalog.entries = before ++ e :: after) (m : Selection) :
    m ∈ e.methods ↔ e.Offers u m ∧ ¬ e.Barred u before m := by
  let blank (e : Entry) : Entry := { e with status := .none }
  have ledger : w.catalog.ledger = before.map blank ++ blank e :: after.map blank := by
    rw [← finished.ledger]
    simp only [Catalog.ledger,split,List.map_append,List.map_cons]
    rfl
  have listed := finished.settled.listed _ _ _ ledger m
  rw [Entry.barred_map (f := blank) fun _ => ⟨rfl,rfl⟩] at listed
  constructor
  · intro inside
    exact (listed.mp inside).2
  · intro facts
    exact listed.mpr ⟨List.not_mem_nil,facts⟩

theorem errsAt_iff (finished : Finished u scope a w) {e : Entry} (member : e ∈ a.catalog.entries) :
    a.catalog.ErrsAt u e ↔ ∃ m ∈ e.methods, ∃ r ∈ m.signature.results, r.type.isError = true := by
  constructor
  · rintro ⟨before,after,split,m,offers,free,error⟩
    exact ⟨m,(finished.listed_iff split m).mpr ⟨offers,free⟩,error⟩
  · rintro ⟨m,listed,error⟩
    obtain ⟨before,after,split⟩ := List.append_of_mem member
    obtain ⟨offers,free⟩ := (finished.listed_iff split m).mp listed
    exact ⟨before,after,split,m,offers,free,error⟩

/-- Before statuses are spread, a type has one exactly when it lists a method with an error result. -/
theorem status_ne_none_iff (finished : Finished u scope a w) {e : Entry}
    (member : e ∈ a.catalog.entries) :
    w.catalog.statusOf e.key ≠ .none ↔
      ∃ m ∈ e.methods, ∃ r ∈ m.signature.results, r.type.isError = true := by
  obtain ⟨e₀,present,same,_,methods⟩ := finished.origin member
  have key : e₀.key = e.key := congrArg Descriptor.key same
  have inLedger := Catalog.mem_ledger present
  rw [← Catalog.ledger_of_idle w [] none] at inLedger
  have accounted := finished.orderly.accounted
  constructor
  · intro wrapped
    rw [← key] at wrapped
    rw [← methods]
    exact (accounted.caused _ inLedger wrapped).2
  · rintro ⟨m,listed,r,result,error⟩
    rw [← methods] at listed
    rcases accounted.answered _ inLedger m listed r result with owes | answered
    · rcases owes with ⟨t,turn,_⟩ | ⟨_,_,onStack⟩
      · cases turn
      · cases onStack
    · unfold Catalog.Answered at answered
      rw [if_pos error] at answered
      obtain ⟨_,_,reached⟩ := answered
      rw [← key]
      exact errorStatus_ne_none reached

theorem reaches (finished : Finished u scope a w) : w.catalog.Reaches = a.catalog.Reaches := by
  unfold Catalog.Reaches
  rw [finished.edges]

/-- After statuses are spread, a type has one exactly when edges lead to it from such a type. -/
theorem wrapped_iff (finished : Finished u scope a w) {e : Entry} (member : e ∈ a.catalog.entries) :
    e.status ≠ .none ↔ ∃ source ∈ a.catalog.entries,
      (∃ m ∈ source.methods, ∃ r ∈ m.signature.results, r.type.isError = true) ∧
        a.catalog.Reaches source.key e.key := by
  have joined := finished.orderly.sound.good.joined
  have spread := Catalog.least_ne_none_iff (fun s d edge => (joined s d edge).2) finished.least e.key
  rw [Catalog.statusOf_of_mem finished.distinct member,finished.reaches] at spread
  rw [spread]
  constructor
  · rintro ⟨source,present,path⟩
    have known : source ∈ a.catalog.keys := by
      rw [finished.keys]
      by_contra absent
      exact present (Catalog.statusOf_of_not_mem absent)
    obtain ⟨s,inside,rfl⟩ := List.mem_map.mp known
    exact ⟨s,inside,(finished.status_ne_none_iff inside).mp present,path⟩
  · rintro ⟨s,inside,error,path⟩
    exact ⟨s.key,(finished.status_ne_none_iff inside).mpr error,path⟩

end Finished

/-- A type needs a proxy exactly when a type errs from which edges lead to it. If it is no interface it is
then hard. -/
theorem wrapped_iff_reached {u : Universe} {root : TypeExpr} {packages : List String} {a : Analysis}
    (ok : run u root packages = .ok a) {e : Entry} (member : e ∈ a.catalog.entries) :
    (e.status ≠ .none ↔ ∃ source ∈ a.catalog.entries,
      a.catalog.ErrsAt u source ∧ a.catalog.Reaches source.key e.key) ∧
    (e.status ≠ .none → e.descriptor.kind ≠ .interface → e.status = .hard) := by
  obtain ⟨w,finished⟩ := finished_of_run ok
  constructor
  · rw [finished.wrapped_iff member]
    constructor
    · rintro ⟨s,inside,error,path⟩
      exact ⟨s,inside,(finished.errsAt_iff inside).mpr error,path⟩
    · rintro ⟨s,inside,errs,path⟩
      exact ⟨s,inside,(finished.errsAt_iff inside).mp errs,path⟩
  · intro wrapped concrete
    cases status : e.status with
    | none => exact absurd status wrapped
    | soft => exact absurd (finished.soft e member status) concrete
    | hard => rfl

theorem sample_wrapped :
    run Sample.types (.named Sample.server) [] = .ok ⟨Sample.catalog .hard,4,1⟩ ∧
      Sample.serverRefEntry .hard ∈ (Sample.catalog .hard).entries ∧
      ∃ source ∈ (Sample.catalog .hard).entries, (Sample.catalog .hard).ErrsAt Sample.types source ∧
        (Sample.catalog .hard).Reaches source.key (Sample.serverRefEntry .hard).key := by
  have member : Sample.serverRefEntry .hard ∈ (Sample.catalog .hard).entries := List.mem_cons_self
  have wrapped : (Sample.serverRefEntry .hard).status ≠ .none := by decide
  exact ⟨Sample.run_types,member,(wrapped_iff_reached Sample.run_types member).1.mp wrapped⟩

/-- The reference to the connection has `Close`, which returns an error, and goes without a proxy. -/
theorem sample_unwrapped :
    run Sample.types (.named Sample.server) [] = .ok ⟨Sample.catalog .hard,4,1⟩ ∧
      Sample.connRefEntry .none ∈ (Sample.catalog .hard).entries ∧
      (Sample.connRefEntry .none).OffersError Sample.types ∧
      (Sample.connRefEntry .none).status = .none := by
  refine ⟨Sample.run_types,by simp [Sample.catalog],?_,rfl⟩
  refine ⟨⟨"Close",none,Sample.close,true⟩,?_,⟨none,.error⟩,List.mem_cons_self,rfl⟩
  exact ⟨_,Sample.methods_connRef,List.mem_cons_self,Sample.exported.2.2⟩

end Analysis
end ProxyGen
