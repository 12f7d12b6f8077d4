import Mathlib.Data.List.Perm.Subperm
import ProxyGen.Proofs.Aliases

/-! The aliases that an import set hands out over any number of calls, whatever paths and names they come with. The
search for a free alias ends, since only so many are taken; a path has the alias of its first call from then on, and
no other path has it. -/
namespace ProxyGen.Code.Imports

/-- The alias that a call is answered with after the calls before it. -/
def answer (before : List (String × String)) (path package : String) : String :=
  ((ofUses before).add path package).qualifier path package

section Histories
variable {before : List (String × String)} {path package shortName : String}

/-- The candidates differ, so there are no more of them among the taken aliases than there are aliases taken. -/
theorem length_le_of_taken {n : Nat} {taken : List String} (tried : ∀ k < n, candidate package k ∈ taken) :
    n ≤ taken.length := by
  have distinct : ((List.range n).map (candidate package)).Nodup :=
    List.nodup_range.map fun _ _ => candidate_injective
  have among : (List.range n).map (candidate package) ⊆ taken := by
    intro name member
    obtain ⟨k,below,rfl⟩ := List.mem_map.mp member
    exact tried k (List.mem_range.mp below)
  simpa using (distinct.subperm among).length_le

theorem alias?_answer (before : List (String × String)) (path package : String) :
    (ofUses (before ++ [(path,package)])).alias? path = some (answer before path package) := by
  have used : (path,package) ∈ before ++ [(path,package)] := by simp
  have held := alias?_qualifier used
  rw [ofUses_concat] at held ⊢
  exact held

theorem alias?_append (held : (ofUses before).alias? path = some shortName) (later : List (String × String)) :
    (ofUses (before ++ later)).alias? path = some shortName :=
  (wellFormed_ofUses _).alias?_iff.mpr ((entries_ofUses_append before later).subset (mem_of_alias? held))

/-- A path that has an alias is answered with it, whatever name comes with the path. -/
theorem answer_of_alias? (held : (ofUses before).alias? path = some shortName) (package : String) :
    answer before path package = shortName := by
  have known : (ofUses before).add path package = ofUses before := by
    unfold add
    rw [held]
  rw [answer,known,qualifier,held,Option.getD_some]

/-- The first call for a path is answered with the first candidate that is free. -/
theorem answer_of_new (package : String) (new : path ∉ before.map Prod.fst) : ∃ n,
    answer before path package = candidate package n ∧ candidate package n ∉ (ofUses before).aliases ∧
      ∀ k < n, candidate package k ∈ (ofUses before).aliases := by
  rcases add_cases (ofUses before) path package with ⟨known,_⟩ | ⟨_,n,entries,free,tried⟩
  · obtain ⟨shortName,held⟩ := Option.isSome_iff_exists.mp known
    exact absurd (mem_paths_ofUses.mp (List.mem_map_of_mem (f := Prod.fst) (mem_of_alias? held))) new
  · refine ⟨n,?_,free,tried⟩
    have held := alias?_answer before path package
    have recorded : (ofUses (before ++ [(path,package)])).alias? path = some (candidate package n) := by
      rw [(wellFormed_ofUses _).alias?_iff,ofUses_concat,entries]
      simp
    exact Option.some.inj (held.symm.trans recorded)

/-- The alias that a call is answered with is from then on the alias of its path and of no other path, and the answer
to every further call for the path. A path that is new gets the given name, or the name with a number after it: the
first of these that is free, which is found after no more tries than aliases are taken. -/
theorem answers_settled (before later : List (String × String)) (path package : String) :
    (∀ path', (ofUses (before ++ (path,package) :: later)).alias? path' = some (answer before path package) ↔
      path' = path) ∧
    (∀ package', answer (before ++ (path,package) :: later) path package' = answer before path package) ∧
    (path ∉ before.map Prod.fst → ∃ n ≤ (ofUses before).aliases.length,
      (n = 0 ∧ answer before path package = package ∨
        0 < n ∧ answer before path package = package ++ toString n) ∧
      answer before path package ∉ (ofUses before).aliases ∧
      ∀ k < n, candidate package k ∈ (ofUses before).aliases) := by
  have kept : (ofUses (before ++ (path,package) :: later)).alias? path = some (answer before path package) := by
    rw [List.append_cons]
    exact alias?_append (alias?_answer before path package) later
  refine ⟨fun path' => ⟨fun held => ?_,fun same => same ▸ kept⟩,answer_of_alias? kept,fun new => ?_⟩
  · exact (wellFormed_ofUses _).eq_of_alias? held kept
  · obtain ⟨n,found,free,tried⟩ := answer_of_new package new
    refine ⟨n,length_le_of_taken tried,?_,found ▸ free,tried⟩
    rw [found]
    cases n with
    | zero => exact .inl ⟨rfl,rfl⟩
    | succ n => exact .inr ⟨Nat.succ_pos n,rfl⟩

end Histories

namespace Models

/-- A package of the name that the first numbered alias would have. -/
def twins : List (String × String) := [("a/model","model"),("b/model1","model1")]

theorem aliases_twins : (ofUses twins).aliases = ["model","model1"] := by decide +kernel

/-- The third package is not numbered one, which is a name in use, and keeps its number when it is called by another
name. -/
theorem shelf_numbered : "c/shelf" ∉ twins.map Prod.fst ∧ answer twins "c/shelf" "model" = "model2" ∧
    answer (twins ++ ("c/shelf","model") :: [("d/lamp","lamp")]) "c/shelf" "shelf" = "model2" := by
  have new : "c/shelf" ∉ twins.map Prod.fst := by decide
  obtain ⟨_,again,first⟩ := answers_settled twins [("d/lamp","lamp")] "c/shelf" "model"
  obtain ⟨n,within,named,free,tried⟩ := first new
  rw [aliases_twins] at within free
  have second : answer twins "c/shelf" "model" = "model2" := by
    match n, within, named with
    | 0, _, .inl named => exact absurd (by rw [named.2]; decide) free
    | 1, _, .inr named => exact absurd (by rw [named.2]; decide) free
    | 2, _, .inr named => exact named.2
  exact ⟨new,second,(again "shelf").trans second⟩

end Models

end ProxyGen.Code.Imports
