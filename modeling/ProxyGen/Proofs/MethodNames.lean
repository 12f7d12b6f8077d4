import Mathlib.Data.List.Permutation
import ProxyGen.Universe.MethodSet

/-! Names in method sets. An interface takes each name from the first declaration that is come upon, and a
promoted name is decided once, so no method set has a name twice. -/
namespace ProxyGen.Universe

def names (methods : List Selection) : List String := methods.map Selection.name

theorem names_append (first second : List Selection) :
    names (first ++ second) = names first ++ names second := List.map_append

theorem names_sortBy_nodup {key : Selection → String} {methods : List Selection}
    (distinct : (names methods).Nodup) : (names (Text.sortBy key methods)).Nodup :=
  ((Text.sortBy_perm key methods).map Selection.name).nodup_iff.mpr distinct

theorem addNew_nodup {found : List Selection} (m : MethodDecl) (distinct : (names found).Nodup) :
    (names (addNew found m)).Nodup := by
  unfold addNew
  split
  next => exact distinct
  next absent =>
    rw [names_append]
    apply List.nodup_append.mpr
    refine ⟨distinct,by simp [names],?_⟩
    intro name present other single equal
    obtain ⟨s,member,rfl⟩ := List.mem_map.mp present
    have other : other = m.name := by simpa [names,MethodDecl.select] using single
    apply absent
    rw [List.any_eq_true]
    exact ⟨s,member,by rw [equal,other,beq_self_eq_true]⟩

theorem foldl_addNew_nodup (methods : List MethodDecl) {found : List Selection}
    (distinct : (names found).Nodup) : (names (methods.foldl addNew found)).Nodup := by
  induction methods generalizing found with
  | nil => exact distinct
  | cons m rest ih => exact ih (addNew_nodup m distinct)

theorem flatten_nodup {u : Universe} {found methods : List Selection} {seen pending : List NamedType}
    (ok : u.flatten found seen pending = .ok methods) (distinct : (names found).Nodup) :
    (names methods).Nodup := by
  fun_induction flatten u found seen pending with
  | case1 found seen =>
    cases ok
    exact distinct
  | case2 _ _ _ _ _ ih => exact ih ok distinct
  | case3 => cases ok
  | case4 _ _ _ _ _ _ ih => exact ih ok distinct
  | case5 _ _ _ _ _ d _ ih => exact ih ok (foldl_addNew_nodup d.methods distinct)

theorem interfaceMethods_nodup {u : Universe} {n : NamedType} {methods : List Selection}
    (ok : u.interfaceMethods n = .ok methods) : (names methods).Nodup := by
  obtain ⟨found,flat,rfl⟩ := interfaceMethods_eq_ok.mp ok
  exact names_sortBy_nodup (flatten_nodup flat (by simp [names]))

theorem selected_nodup (decided : List String) (offered : List Selection) :
    (names (selected decided offered)).Nodup := by
  rw [List.nodup_iff_count_le_one]
  intro name
  by_cases present : name ∈ names (selected decided offered)
  · obtain ⟨m,member,rfl⟩ := List.mem_map.mp present
    have once : offered.countP (fun s => s.name == m.name) = 1 := by
      have kept := (List.mem_filter.mp member).2
      simp only [Bool.and_eq_true,beq_iff_eq] at kept
      exact kept.2
    calc (names (selected decided offered)).count m.name
        = (selected decided offered).countP (fun s => s.name == m.name) := by
          rw [names,List.count_eq_countP,List.countP_map]
          rfl
      _ ≤ offered.countP (fun s => s.name == m.name) := List.filter_sublist.countP_le
      _ = 1 := once
  · rw [List.count_eq_zero_of_not_mem present]
    exact Nat.zero_le 1

theorem selected_undecided {decided : List String} {offered : List Selection} {m : Selection}
    (member : m ∈ selected decided offered) : m.name ∉ decided ∧ m ∈ offered := by
  obtain ⟨present,kept⟩ := List.mem_filter.mp member
  simp only [Bool.and_eq_true,Bool.not_eq_true',List.contains_eq_mem,decide_eq_false_iff_not]
    at kept
  exact ⟨kept.1,present⟩

theorem promote_nodup {u : Universe} {found methods : List Selection} {decided : List String}
    {seen : List NamedType} {level : List (NamedType × Bool)}
    (ok : u.promote found decided seen level = .ok methods) (distinct : (names found).Nodup)
    (known : ∀ m ∈ found, m.name ∈ decided) : (names methods).Nodup := by
  fun_induction promote u found decided seen level with
  | case1 =>
    cases ok
    exact distinct
  | case2 => cases ok
  | case3 found decided _ _ _ l _ ih =>
    apply ih ok
    · rw [names_append]
      apply List.nodup_append.mpr
      refine ⟨distinct,selected_nodup decided l.offered,?_⟩
      intro name before other after equal
      obtain ⟨m,inFound,rfl⟩ := List.mem_map.mp before
      obtain ⟨s,inSelected,rfl⟩ := List.mem_map.mp after
      have undecided := (selected_undecided inSelected).1
      rw [← equal] at undecided
      exact undecided (known m inFound)
    · intro m member
      rcases List.mem_append.mp member with before | after
      · exact List.mem_append_left _ (known m before)
      · exact List.mem_append_right _ (List.mem_map_of_mem (selected_undecided after).2)

theorem promotedMethods_nodup {u : Universe} {n : NamedType} {viaReference : Bool}
    {methods : List Selection} (ok : u.promotedMethods n viaReference = .ok methods) :
    (names methods).Nodup := by
  obtain ⟨found,promoted,rfl⟩ := promotedMethods_eq_ok.mp ok
  exact names_sortBy_nodup (promote_nodup promoted (by simp [names]) (by simp))

theorem namedMethods_nodup {u : Universe} {n : NamedType} {viaReference : Bool}
    {methods : List Selection} (ok : u.namedMethods n viaReference = .ok methods) :
    (names methods).Nodup := by
  unfold namedMethods at ok
  split at ok
  next => cases ok
  next =>
    cases ok
    exact List.nodup_nil
  next d _ =>
    split at ok
    · split at ok
      · cases ok
        exact List.nodup_nil
      · exact interfaceMethods_nodup ok
    · exact promotedMethods_nodup ok

theorem methodSet_nodup {u : Universe} {t : TypeExpr} {methods : List Selection}
    (ok : u.methodSet t = .ok methods) : (names methods).Nodup := by
  unfold methodSet at ok
  split at ok
  · exact namedMethods_nodup ok
  · exact namedMethods_nodup ok
  · cases ok
    exact List.nodup_nil

end ProxyGen.Universe
