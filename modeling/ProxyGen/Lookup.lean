/-! Lists of pairs that are looked up by their first parts. -/
namespace ProxyGen

section Lookup
variable {α β : Type} [BEq α] [LawfulBEq α] {key other : α} {b : β} {l : List (α × β)}

theorem lookup_cons_other (differs : other ≠ key) (b : β) (l : List (α × β)) :
    List.lookup other ((key,b) :: l) = l.lookup other := by
  rw [List.lookup_cons,beq_eq_false_iff_ne.mpr differs]

theorem lookup_filter_ne (differs : other ≠ key) : (l.filter (·.1 != key)).lookup other = l.lookup other := by
  induction l with
  | nil => rfl
  | cons first rest ih =>
    obtain ⟨k,b⟩ := first
    by_cases same : k = key
    · rw [List.filter_cons_of_neg (by simpa using same),ih,same,lookup_cons_other differs]
    · rw [List.filter_cons_of_pos (by simpa using same),List.lookup_cons,List.lookup_cons,ih]

theorem lookup_filter_self : (l.filter (·.1 != key)).lookup key = none := by
  rw [List.lookup_eq_none_iff]
  intro kept member
  simpa [bne_comm] using (List.mem_filter.mp member).2

/-- Where every key occurs once a lookup finds what stands beside the key. -/
theorem lookup_of_mem (distinct : (l.map Prod.fst).Nodup) (member : (key,b) ∈ l) : l.lookup key = some b := by
  induction l with
  | nil => cases member
  | cons first rest ih =>
    obtain ⟨fresh,later⟩ := List.nodup_cons.mp distinct
    rcases List.mem_cons.mp member with rfl | member
    · exact List.lookup_cons_self
    · have differs : key ≠ first.1 := by
        intro same
        exact fresh (List.mem_map.mpr ⟨_,member,same⟩)
      rw [lookup_cons_other differs first.2 rest]
      exact ih later member

theorem mem_of_lookup (found : l.lookup key = some b) : (key,b) ∈ l := by
  obtain ⟨before,later,rfl,_⟩ := List.lookup_eq_some_iff.mp found
  simp

end Lookup
end ProxyGen
