/-!
Sorting by a text, in the order of code points.
-/
namespace ProxyGen.Text

variable {α : Type}

/-- Comes no later in the order of code points. -/
def atMost (a b : String) : Bool := decide (a ≤ b)

/-- Sorts by a key; elements with equal keys keep their order. -/
def sortBy (key : α → String) (l : List α) : List α := l.mergeSort fun a b => atMost (key a) (key b)

theorem sortBy_perm (key : α → String) (l : List α) : (sortBy key l).Perm l :=
  List.mergeSort_perm _ _

theorem mem_sortBy {key : α → String} {l : List α} {a : α} : a ∈ sortBy key l ↔ a ∈ l :=
  (sortBy_perm key l).mem_iff

theorem pairwise_sortBy (key : α → String) (l : List α) :
    (sortBy key l).Pairwise fun a b => key a ≤ key b := by
  have ascending : (sortBy key l).Pairwise fun a b => atMost (key a) (key b) = true := by
    apply List.pairwise_mergeSort
    · intro a b c
      simpa [atMost] using String.le_trans
    · intro a b
      simpa [atMost] using String.le_total (key a) (key b)
  exact ascending.imp decide_eq_true_iff.mp

section Distinct
variable {key : α → String} {l l' sorted : List α}

/-- Where no two keys are equal, sorting makes them increase. -/
theorem increasing_sortBy (distinct : (l.map key).Nodup) : (sortBy key l).Pairwise fun a b => key a < key b := by
  have apart : ((sortBy key l).map key).Nodup := ((sortBy_perm key l).map key).nodup_iff.mpr distinct
  exact (pairwise_sortBy key l).imp₂ (fun _ _ below other => Std.lt_of_le_of_ne below other)
    (List.pairwise_map.mp apart)

/-- Sorting puts elements into the order in which their keys increase. -/
theorem sortBy_eq (perm : l.Perm sorted) (increasing : sorted.Pairwise fun a b => key a < key b) :
    sortBy key l = sorted := by
  have apart : (sorted.map key).Nodup := List.pairwise_map.mpr (increasing.imp String.ne_of_lt)
  have distinct : (l.map key).Nodup := (perm.map key).nodup_iff.mpr apart
  refine List.Perm.eq_of_pairwise ?_ (increasing_sortBy distinct) increasing ((sortBy_perm key l).trans perm)
  intro a b _ _ below above
  exact absurd (String.lt_trans below above) (String.lt_irrefl _)

theorem sortBy_congr (perm : l.Perm l') (distinct : (l.map key).Nodup) : sortBy key l = sortBy key l' :=
  sortBy_eq (perm.trans (sortBy_perm key l').symm) (increasing_sortBy ((perm.map key).nodup_iff.mp distinct))

end Distinct

end ProxyGen.Text
