import Mathlib.Data.List.Induction
import Mathlib.Data.List.Nodup
import ProxyGen.Code.Printer
import ProxyGen.Lookup

/-! What the lines of an import block bind. An import set gives every path one alias, the name of its package or
that name with the first number that is free; a line spells the alias unless it is the last element of the path, and
then the package goes by its own name, which may be the alias of another one. -/
namespace ProxyGen

theorem toString_injective {m n : Nat} (same : toString m = toString n) : m = n := by
  have value := congrArg (fun digits : String => Nat.ofDigitChars 10 digits.toList 0) same
  simpa [Nat.toString_eq_ofList_toDigits] using value

namespace Code
namespace Imports

theorem candidate_injective {package : String} {m n : Nat}
    (same : candidate package m = candidate package n) : m = n := by
  have numbered (k : Nat) : package ≠ package ++ toString (k + 1) := by
    intro same
    have digits := String.append_right_inj package |>.mp (String.append_empty.trans same)
    exact Nat.repr_ne_empty digits.symm
  match m, n with
  | 0, 0 => rfl
  | 0, n + 1 => exact absurd same (numbered n)
  | m + 1, 0 => exact absurd same.symm (numbered m)
  | m + 1, n + 1 => exact toString_injective (String.append_right_inj package |>.mp same)

/-- Of the candidates from some number on the first one that is not taken is found. -/
theorem freshFrom_spec (package : String) (n : Nat) (taken : List String) :
    ∃ m, n ≤ m ∧ freshFrom package n taken = candidate package m ∧ candidate package m ∉ taken ∧
      ∀ k, n ≤ k → k < m → candidate package k ∈ taken := by
  fun_induction freshFrom package n taken with
  | case1 n taken held ih =>
    obtain ⟨m,after,found,free,before⟩ := ih
    have other : candidate package m ≠ candidate package n := by
      intro same
      have := candidate_injective same
      omega
    refine ⟨m,by omega,found,?_,?_⟩
    · intro inside
      exact free ((List.mem_erase_of_ne other).mpr inside)
    · intro k least below
      rcases Nat.eq_or_lt_of_le least with rfl | least
      · exact held
      · exact List.mem_of_mem_erase (before k least below)
  | case2 n taken free => exact ⟨n,Nat.le_refl n,rfl,free,fun k least below => absurd below (by omega)⟩

/-- Every path has one alias, and every alias one path. -/
structure WellFormed (i : Imports) : Prop where
  paths : (i.entries.map Prod.fst).Nodup
  aliases : i.aliases.Nodup

section Sets
variable {i : Imports} {path path' package shortName : String}

theorem mem_of_alias? (held : i.alias? path = some shortName) : (path,shortName) ∈ i.entries := mem_of_lookup held

namespace WellFormed

theorem alias?_iff (good : i.WellFormed) : i.alias? path = some shortName ↔ (path,shortName) ∈ i.entries :=
  ⟨mem_of_alias?,lookup_of_mem good.paths⟩

theorem eq_of_alias? (good : i.WellFormed) (held : i.alias? path = some shortName)
    (held' : i.alias? path' = some shortName) : path = path' := by
  have same := List.inj_on_of_nodup_map good.aliases (good.alias?_iff.mp held) (good.alias?_iff.mp held') rfl
  exact congrArg Prod.fst same

end WellFormed

/-- A path that is known stays as it is, and a new one comes last, with the first candidate that is free. -/
theorem add_cases (i : Imports) (path package : String) :
    ((i.alias? path).isSome ∧ i.add path package = i) ∨
      (path ∉ i.entries.map Prod.fst ∧ ∃ n,
        (i.add path package).entries = i.entries ++ [(path,candidate package n)] ∧
          candidate package n ∉ i.aliases ∧ ∀ k < n, candidate package k ∈ i.aliases) := by
  unfold add
  split
  next shortName held => exact .inl ⟨by rw [held]; rfl,rfl⟩
  next unknown =>
    obtain ⟨n,_,found,free,before⟩ := freshFrom_spec package 0 i.aliases
    refine .inr ⟨?_,n,?_,free,fun k below => before k (Nat.zero_le k) below⟩
    · intro inside
      obtain ⟨entry,member,same⟩ := List.mem_map.mp inside
      have other := List.lookup_eq_none_iff.mp unknown entry member
      exact bne_iff_ne.mp other same.symm
    · rw [found]

theorem WellFormed.add (good : i.WellFormed) (path package : String) : (i.add path package).WellFormed := by
  have extended {l : List String} {s : String} (once : l.Nodup) (new : s ∉ l) : (l ++ [s]).Nodup := by
    rw [← List.concat_eq_append]
    exact once.concat new
  rcases add_cases i path package with ⟨_,same⟩ | ⟨fresh,n,entries,free,_⟩
  · exact same.symm ▸ good
  · constructor
    · rw [entries,List.map_append]
      exact extended good.paths fresh
    · rw [Imports.aliases,entries,List.map_append]
      exact extended good.aliases free

/-- What is recorded stays recorded. -/
theorem entries_add (i : Imports) (path package : String) : i.entries <+: (i.add path package).entries := by
  rcases add_cases i path package with ⟨_,same⟩ | ⟨_,n,entries,_,_⟩
  · exact same.symm ▸ List.prefix_rfl
  · rw [entries]
    exact List.prefix_append _ _

theorem path_mem_add (i : Imports) (path package : String) :
    path ∈ (i.add path package).entries.map Prod.fst := by
  rcases add_cases i path package with ⟨held,same⟩ | ⟨_,n,entries,_,_⟩
  · obtain ⟨shortName,held⟩ := Option.isSome_iff_exists.mp held
    rw [same]
    exact List.mem_map_of_mem (mem_of_alias? held)
  · rw [entries]
    simp

end Sets

section Uses
variable {uses : List (String × String)} {declared : String → String} {path shortName : String}

theorem ofUses_concat (uses : List (String × String)) (use : String × String) :
    ofUses (uses ++ [use]) = (ofUses uses).add use.1 use.2 := by
  rw [ofUses,List.foldl_append]
  rfl

theorem entries_ofUses_append (first rest : List (String × String)) :
    (ofUses first).entries <+: (ofUses (first ++ rest)).entries := by
  induction rest using List.reverseRecOn with
  | nil => exact (List.append_nil first).symm ▸ List.prefix_rfl
  | append_singleton rest use ih =>
    rw [← List.append_assoc,ofUses_concat]
    exact ih.trans (entries_add _ use.1 use.2)

theorem wellFormed_ofUses (uses : List (String × String)) : (ofUses uses).WellFormed := by
  induction uses using List.reverseRecOn with
  | nil => exact ⟨List.nodup_nil,List.nodup_nil⟩
  | append_singleton uses use ih =>
    rw [ofUses_concat]
    exact ih.add use.1 use.2

/-- The paths of an import set are those that are used. -/
theorem mem_paths_ofUses : path ∈ (ofUses uses).entries.map Prod.fst ↔ path ∈ uses.map Prod.fst := by
  induction uses using List.reverseRecOn with
  | nil => rfl
  | append_singleton uses use ih =>
    rw [ofUses_concat,List.map_append,List.mem_append,← ih,List.map_singleton,List.mem_singleton]
    constructor
    · intro inside
      rcases add_cases (ofUses uses) use.1 use.2 with ⟨_,same⟩ | ⟨_,n,entries,_,_⟩
      · exact .inl (same ▸ inside)
      · simpa [entries] using inside
    · intro used
      rcases used with earlier | rfl
      · exact ((entries_add (ofUses uses) use.1 use.2).map Prod.fst).subset earlier
      · exact path_mem_add (ofUses uses) use.1 use.2

theorem alias?_ofUses (used : path ∈ uses.map Prod.fst) : ∃ shortName, (ofUses uses).alias? path = some shortName := by
  obtain ⟨entry,member,rfl⟩ := List.mem_map.mp (mem_paths_ofUses.mpr used)
  exact ⟨entry.2,(wellFormed_ofUses uses).alias?_iff.mpr member⟩

/-- Where a path always comes with the name of its package, its alias is the first candidate for this name that no
path before it has. -/
theorem alias_of_named (named : ∀ use ∈ uses, use.2 = declared use.1)
    (member : (path,shortName) ∈ (ofUses uses).entries) :
    ∃ n, shortName = candidate (declared path) n ∧
      ∀ k < n, candidate (declared path) k ∈ (ofUses uses).aliases := by
  induction uses using List.reverseRecOn generalizing path shortName with
  | nil => cases member
  | append_singleton uses use ih =>
    obtain ⟨earlier,last⟩ := List.forall_mem_append.mp named
    have kept : (ofUses uses).aliases ⊆ (ofUses (uses ++ [use])).aliases := by
      rw [ofUses_concat]
      exact ((entries_add (ofUses uses) use.1 use.2).map Prod.snd).subset
    have old (member : (path,shortName) ∈ (ofUses uses).entries) :
        ∃ n, shortName = candidate (declared path) n ∧
          ∀ k < n, candidate (declared path) k ∈ (ofUses (uses ++ [use])).aliases := by
      obtain ⟨n,equal,before⟩ := ih earlier member
      exact ⟨n,equal,fun k below => kept (before k below)⟩
    rw [ofUses_concat] at member
    rcases add_cases (ofUses uses) use.1 use.2 with ⟨_,same⟩ | ⟨_,n,entries,_,before⟩
    · exact old (same ▸ member)
    · rw [entries,List.mem_append,List.mem_singleton] at member
      rcases member with member | new
      · exact old member
      · obtain ⟨rfl,rfl⟩ := Prod.mk.inj new
        rw [← last use List.mem_cons_self]
        exact ⟨n,rfl,fun k below => kept (before k below)⟩

/-- Names are qualified by the alias that is recorded. -/
theorem alias?_qualifier {use : String × String} (used : use ∈ uses) :
    (ofUses uses).alias? use.1 = some ((ofUses uses).qualifier use.1 use.2) := by
  obtain ⟨shortName,held⟩ := alias?_ofUses (List.mem_map_of_mem (f := Prod.fst) used)
  rw [qualifier,held]
  rfl

/-- A path has another alias than the name of its package exactly where another path has this name. -/
theorem qualifier_ne_iff (named : ∀ use ∈ uses, use.2 = declared use.1) {use : String × String}
    (used : use ∈ uses) : (ofUses uses).qualifier use.1 use.2 ≠ declared use.1 ↔
      ∃ other ∈ uses, other.1 ≠ use.1 ∧ (ofUses uses).qualifier other.1 other.2 = declared use.1 := by
  have good := wellFormed_ofUses uses
  have held := alias?_qualifier used
  constructor
  · intro other
    obtain ⟨n,candidate,before⟩ := alias_of_named named (mem_of_alias? held)
    have later : 0 < n := by
      apply Nat.pos_of_ne_zero
      intro first
      rw [first] at candidate
      exact other candidate
    obtain ⟨entry,member,same⟩ := List.mem_map.mp (before 0 later)
    obtain ⟨use',used',path⟩ := List.mem_map.mp (mem_paths_ofUses.mp (List.mem_map_of_mem (f := Prod.fst) member))
    have recorded : (ofUses uses).alias? use'.1 = some (declared use.1) := by
      rw [path,good.alias?_iff]
      exact (show entry.2 = declared use.1 from same) ▸ member
    have qualifies := Option.some.inj ((alias?_qualifier used').symm.trans recorded)
    refine ⟨use',used',?_,qualifies⟩
    intro same
    rw [same,held] at recorded
    exact other (Option.some.inj recorded)
  · intro taken same
    obtain ⟨other,used',apart,equal⟩ := taken
    have held' := alias?_qualifier used'
    rw [equal,← same] at held'
    exact apart (good.eq_of_alias? held' held)

end Uses

end Imports

/-- The name that a line of an import block binds where packages have the declared names: the one that is spelled on
it, or else that of the package. -/
inductive Binds (declared : String → String) (path : String) : (line name : String) → Prop
  | spelled (name : String) : Binds declared path (name ++ " " ++ Text.quote path) name
  | bare : Binds declared path (Text.quote path) (declared path)

theorem binds_importSpec_iff {declared : String → String} {path shortName name : String} :
    Binds declared path (importSpec path shortName) name ↔
      name = if lastElement path = shortName then declared path else shortName := by
  have longer (name : String) : name ++ " " ++ Text.quote path ≠ Text.quote path := by
    intro same
    have lengths := congrArg String.length same
    simp only [String.length_append] at lengths
    have blank : " ".length = 1 := rfl
    omega
  constructor
  · intro binds
    generalize written : importSpec path shortName = line at binds
    unfold importSpec at written
    cases binds with
    | spelled =>
      split at written
      next => exact absurd written.symm (longer name)
      next spells =>
        rw [if_neg (by simpa using spells)]
        exact ((String.append_left_inj _).mp ((String.append_left_inj _).mp written)).symm
    | bare =>
      split at written
      next last => rw [if_pos (by simpa using last)]
      next => exact absurd written (longer shortName)
  · intro equal
    unfold importSpec
    split
    next last =>
      rw [equal,if_pos (by simpa using last)]
      exact .bare
    next spells =>
      rw [equal,if_neg (by simpa using spells)]
      exact .spelled shortName

namespace Imports

def lines (i : Imports) : List String := i.sorted.map fun entry => importSpec entry.1 entry.2

/-- A single line stands alone, and several stand in parentheses. -/
def block : List String → String
  | [] => ""
  | [line] => "\nimport " ++ line ++ "\n"
  | lines => "\nimport (\n" ++ String.join (lines.map fun line => "\t" ++ line ++ "\n") ++ ")\n"

theorem text_eq_block (i : Imports) : i.text = block i.lines := by
  unfold text lines
  match i.sorted with
  | [] => rfl
  | [entry] => rfl
  | entry :: entry' :: rest =>
    simp only [block,List.map_cons,List.map_map]
    rfl

/-- An import block has a line for each path that is used. The line binds the alias of the path, unless the alias is
the last element of the path while the name of the package is the alias of another path. -/
theorem lines_bind_iff {declared : String → String} {uses : List (String × String)}
    (named : ∀ use ∈ uses, use.2 = declared use.1) :
    (ofUses uses).text = block (ofUses uses).lines ∧
      (∀ line, line ∈ (ofUses uses).lines ↔
        ∃ use ∈ uses, line = importSpec use.1 ((ofUses uses).qualifier use.1 use.2)) ∧
      ∀ use ∈ uses, ∀ shortName, (ofUses uses).qualifier use.1 use.2 = shortName →
        (∃! name, Binds declared use.1 (importSpec use.1 shortName) name) ∧
          (Binds declared use.1 (importSpec use.1 shortName) shortName ↔
            ¬ (shortName = lastElement use.1 ∧
              ∃ other ∈ uses, other.1 ≠ use.1 ∧ (ofUses uses).qualifier other.1 other.2 = declared use.1)) := by
  refine ⟨text_eq_block _,?_,?_⟩
  · intro line
    unfold lines
    rw [List.mem_map]
    constructor
    · intro inside
      obtain ⟨⟨path,shortName⟩,member,rfl⟩ := inside
      have entry := (Text.mem_sortBy).mp member
      obtain ⟨use,used,rfl⟩ := List.mem_map.mp (mem_paths_ofUses.mp (List.mem_map_of_mem (f := Prod.fst) entry))
      have recorded := (wellFormed_ofUses uses).alias?_iff.mpr entry
      have same := Option.some.inj ((alias?_qualifier used).symm.trans recorded)
      exact ⟨use,used,by rw [same]⟩
    · intro written
      obtain ⟨use,used,rfl⟩ := written
      exact ⟨_,Text.mem_sortBy.mpr (mem_of_alias? (alias?_qualifier used)),rfl⟩
  · intro use used shortName equal
    rw [← qualifier_ne_iff named used,equal]
    constructor
    · exact ⟨_,binds_importSpec_iff.mpr rfl,fun name binds => binds_importSpec_iff.mp binds⟩
    · rw [binds_importSpec_iff]
      split
      next last => simp [last]
      next other => simp [Ne.symm other]

namespace Models

def uses : List (String × String) := [("a/model","model"),("b/model1","model"),("c/shelf","model")]

def declared (_ : String) : String := "model"

theorem named : ∀ use ∈ uses, use.2 = declared use.1 := by decide

theorem entries_eq : (ofUses uses).entries = [("a/model","model"),("b/model1","model1"),("c/shelf","model2")] := by
  decide +kernel

theorem lines_eq : (ofUses uses).lines = ["\"a/model\"","\"b/model1\"","model2 \"c/shelf\""] := by
  have sorted : (ofUses uses).sorted = [("a/model","model"),("b/model1","model1"),("c/shelf","model2")] := by
    rw [sorted,entries_eq]
    exact List.mergeSort_of_pairwise (by decide)
  rw [Imports.lines,sorted]
  decide

theorem qualifier_eq (path package : String) : (ofUses uses).qualifier path package =
    ([("a/model","model"),("b/model1","model1"),("c/shelf","model2")].lookup path).getD package := by
  rw [Imports.qualifier,alias?,entries_eq]

/-- The first package has its own name as alias, and the alias of the third one is spelled. -/
theorem models_bound : (∀ use ∈ uses, use.2 = declared use.1) ∧
    Binds declared "a/model" (importSpec "a/model" "model") "model" ∧
    Binds declared "c/shelf" (importSpec "c/shelf" "model2") "model2" := by
  obtain ⟨_,_,each⟩ := lines_bind_iff named
  refine ⟨named,?_,?_⟩
  · refine (each ("a/model","model") (by decide) "model" (by rw [qualifier_eq]; rfl)).2.mpr ?_
    intro misbound
    obtain ⟨_,other,used,apart,taken⟩ := misbound
    rw [qualifier_eq] at taken
    revert other
    decide
  · refine (each ("c/shelf","model") (by decide) "model2" (by rw [qualifier_eq]; rfl)).2.mpr ?_
    intro misbound
    exact absurd misbound.1 (by decide)

/-- The second package has the alias that its path ends with, and its line spells none, so the line binds the name
that the first package has already. -/
theorem models_misbound : (∀ use ∈ uses, use.2 = declared use.1) ∧
    (ofUses uses).text = "\nimport (\n\t\"a/model\"\n\t\"b/model1\"\n\tmodel2 \"c/shelf\"\n)\n" ∧
    (ofUses uses).qualifier "b/model1" "model" = "model1" ∧ importSpec "b/model1" "model1" = "\"b/model1\"" ∧
    Binds declared "b/model1" (importSpec "b/model1" "model1") "model" ∧
    ¬ Binds declared "b/model1" (importSpec "b/model1" "model1") "model1" := by
  have last : lastElement "b/model1" = "model1" := by decide
  refine ⟨named,?_,by rw [qualifier_eq]; rfl,by decide,?_,?_⟩
  · rw [text_eq_block,lines_eq]
    rfl
  · rw [binds_importSpec_iff,if_pos last]
    rfl
  · rw [binds_importSpec_iff,if_pos last]
    decide

end Models

end Imports
end Code
end ProxyGen
