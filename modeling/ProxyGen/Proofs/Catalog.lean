import Mathlib.Data.List.Nodup
import Mathlib.Order.Basic
import ProxyGen.Catalog.Basic

/-! The order of statuses, and what a catalog holds under a key. Statuses are read as a function of keys,
which gives nothing for a key that no entry has. -/
namespace ProxyGen

namespace Status

theorem rank_injective {s t : Status} (equal : s.rank = t.rank) : s = t := by
  cases s <;> cases t <;> first | rfl | cases equal

instance : PartialOrder Status where
  le := LE.le
  lt := LT.lt
  le_refl s := Nat.le_refl s.rank
  le_trans _ _ _ := Nat.le_trans
  lt_iff_le_not_ge _ _ := Nat.lt_iff_le_and_not_ge
  le_antisymm _ _ below above := rank_injective (Nat.le_antisymm below above)

theorem none_le (s : Status) : none ≤ s := Nat.zero_le s.rank

theorem not_lt_iff_le {s t : Status} : ¬ s < t ↔ t ≤ s := Nat.not_lt

theorem eq_hard {s : Status} (reached : hard ≤ s) : s = hard := by
  revert reached
  cases s <;> decide

theorem le_soft {s : Status} (lower : s ≠ hard) : s ≤ soft := by
  revert lower
  cases s <;> decide

theorem eq_soft {s : Status} (some : s ≠ none) (below : s ≤ soft) : s = soft := by
  revert some below
  cases s <;> decide

/-- What a type of this status calls for in a type of the given kind whose methods return it. -/
def effective : Status → Kind → Status
  | none, _ => none
  | soft, .interface => soft
  | soft, _ => hard
  | hard, _ => hard

theorem passedTo_eq_effective (s : Status) (kind : Kind) : s.passedTo kind = s.effective kind := by
  cases s <;> cases kind <;> rfl

theorem le_effective (s : Status) (kind : Kind) : s ≤ s.effective kind := by
  rw [← passedTo_eq_effective]
  exact le_passedTo s kind

theorem effective_mono {s t : Status} (below : s ≤ t) (kind : Kind) :
    s.effective kind ≤ t.effective kind := by
  revert below
  cases s <;> cases t <;> cases kind <;> decide

theorem interface_of_effective_soft {s : Status} {kind : Kind} (left : s.effective kind = soft) :
    kind = .interface := by
  cases s <;> cases kind <;> first | rfl | cases left

/-- A status that may stand in a type of this kind, and is no lower than what the type returns, is as high
as the type needs. -/
theorem effective_le {s t : Status} {kind : Kind} (concrete : t = soft → kind = .interface)
    (below : s ≤ t) : s.effective kind ≤ t := by
  revert concrete below
  cases s <;> cases t <;> cases kind <;> decide

end Status

namespace Catalog

def keys (c : Catalog) : List String := c.entries.map Entry.key

def statusOf (c : Catalog) (key : String) : Status := ((c.entry? key).map Entry.status).getD .none

def withStatuses (c : Catalog) (status : String → Status) : Catalog :=
  { c with entries := c.entries.map fun e => { e with status := status e.key } }

theorem entry?_some {c : Catalog} {key : String} {e : Entry} (found : c.entry? key = some e) :
    e ∈ c.entries ∧ e.key = key :=
  ⟨List.mem_of_find?_eq_some found,by simpa using List.find?_some found⟩

theorem entry?_none {c : Catalog} {key : String} : c.entry? key = none ↔ key ∉ c.keys := by
  simp [Catalog.entry?,keys,List.find?_eq_none]

theorem mem_keys {c : Catalog} {e : Entry} (member : e ∈ c.entries) : e.key ∈ c.keys :=
  List.mem_map_of_mem member

theorem mem_keys_of_found {c : Catalog} {key : String} {e : Entry} (found : c.entry? key = some e) :
    key ∈ c.keys := by
  obtain ⟨member,rfl⟩ := entry?_some found
  exact mem_keys member

theorem entry_unique {c : Catalog} (distinct : c.keys.Nodup) {e e' : Entry} (first : e ∈ c.entries)
    (second : e' ∈ c.entries) (equal : e.key = e'.key) : e = e' :=
  List.inj_on_of_nodup_map distinct first second equal

theorem entry?_of_mem {c : Catalog} (distinct : c.keys.Nodup) {e : Entry} (member : e ∈ c.entries) :
    c.entry? e.key = some e := by
  cases found : c.entry? e.key with
  | none => exact absurd (mem_keys member) (entry?_none.mp found)
  | some other =>
    obtain ⟨present,equal⟩ := entry?_some found
    rw [entry_unique distinct present member equal]

theorem statusOf_of_mem {c : Catalog} (distinct : c.keys.Nodup) {e : Entry} (member : e ∈ c.entries) :
    c.statusOf e.key = e.status := by
  simp [statusOf,entry?_of_mem distinct member]

theorem statusOf_of_not_mem {c : Catalog} {key : String} (absent : key ∉ c.keys) :
    c.statusOf key = .none := by
  simp [statusOf,entry?_none.mpr absent]

@[simp] theorem keys_withStatuses (c : Catalog) (status : String → Status) :
    (c.withStatuses status).keys = c.keys := by
  simp [keys,withStatuses,Entry.key,Function.comp_def]

@[simp] theorem edges_withStatuses (c : Catalog) (status : String → Status) :
    (c.withStatuses status).edges = c.edges := rfl

theorem mem_dependents {c : Catalog} {source dependent : String} :
    dependent ∈ c.dependents source ↔ (source,dependent) ∈ c.edges := by
  simp [dependents,List.mem_map,List.mem_filter]

theorem entry?_withStatuses (c : Catalog) (status : String → Status) (key : String) :
    Catalog.entry? (c.withStatuses status) key =
      (c.entry? key).map fun e => { e with status := status e.key } := by
  unfold Catalog.entry? withStatuses
  rw [List.find?_map]
  rfl

theorem withStatuses_statusOf {c : Catalog} (distinct : c.keys.Nodup) :
    c.withStatuses c.statusOf = c := by
  have same : (c.entries.map fun e => { e with status := c.statusOf e.key }) = c.entries := by
    refine Eq.trans (List.map_congr_left ?_) (List.map_id c.entries)
    intro e member
    rw [statusOf_of_mem distinct member]
    rfl
  rw [withStatuses,same]

end Catalog
end ProxyGen
