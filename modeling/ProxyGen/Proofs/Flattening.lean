import Mathlib.Logic.Relation
import ProxyGen.Proofs.Evaluation
import ProxyGen.Proofs.MethodNames

/-! What an interface inherits. The search for its methods goes through all types that are embedded by name, at
any distance and round in circles, and of each name it keeps the declaration that it came upon first. -/
namespace ProxyGen.Universe

/-- A declared type embeds another one by its name. -/
def EmbedsName (u : Universe) (x y : NamedType) : Prop :=
  ∃ d, u.find x = .ok (some d) ∧ .named y ∈ d.embeds

/-- Leads from type to type, each of which embeds the next one by name. -/
abbrev Inherits (u : Universe) : NamedType → NamedType → Prop := Relation.ReflTransGen u.EmbedsName

def DeclaresMethod (u : Universe) (x : NamedType) (m : MethodDecl) : Prop :=
  ∃ d, u.find x = .ok (some d) ∧ m ∈ d.methods

theorem mem_embeddedNames {d : TypeDecl} {y : NamedType} : y ∈ d.embeddedNames ↔ .named y ∈ d.embeds := by
  unfold TypeDecl.embeddedNames
  rw [List.mem_filterMap]
  constructor
  · rintro ⟨t,member,found⟩
    cases t <;> cases found
    exact member
  · intro member
    exact ⟨_,member,rfl⟩

section Taking
variable {found : List Selection} {methods : List MethodDecl} {m : MethodDecl} {name : String}

theorem addNew_extends (found : List Selection) (m : MethodDecl) : found <+: addNew found m := by
  unfold addNew
  split
  · exact List.prefix_rfl
  · exact List.prefix_append _ _

theorem foldl_addNew_extends (methods : List MethodDecl) (found : List Selection) :
    found <+: methods.foldl addNew found := by
  induction methods generalizing found with
  | nil => exact List.prefix_rfl
  | cons m rest ih => exact (addNew_extends found m).trans (ih _)

theorem mem_names_addNew : m.name ∈ names (addNew found m) := by
  unfold addNew
  split
  next present =>
    obtain ⟨s,member,same⟩ := List.any_eq_true.mp present
    exact List.mem_map.mpr ⟨s,member,by simpa using same⟩
  next => simp [names,MethodDecl.select]

theorem mem_names_foldl_addNew (member : m ∈ methods) : m.name ∈ names (methods.foldl addNew found) := by
  induction methods generalizing found with
  | nil => cases member
  | cons first rest ih =>
    rcases List.mem_cons.mp member with rfl | later
    · exact ((foldl_addNew_extends rest _).map Selection.name).subset mem_names_addNew
    · exact ih later

/-- Of the declarations of a name that is not taken yet the first one is kept. -/
theorem first_mem_foldl_addNew (free : name ∉ names found)
    (first : methods.find? (·.name == name) = some m) : m.select false ∈ methods.foldl addNew found := by
  induction methods generalizing found with
  | nil => cases first
  | cons own rest ih =>
    have absent : found.any (·.name == name) = false := by
      rw [List.any_eq_false]
      intro s member same
      exact free (List.mem_map.mpr ⟨s,member,by simpa using same⟩)
    by_cases named : own.name = name
    · rw [List.find?_cons_of_pos (by simpa using named)] at first
      cases first
      subst named
      refine (foldl_addNew_extends rest _).subset ?_
      rw [addNew,absent]
      simp
    · rw [List.find?_cons_of_neg (by simpa using named)] at first
      refine ih ?_ first
      unfold addNew
      split
      · exact free
      · rw [names_append,List.mem_append]
        rintro (old | new)
        · exact free old
        · exact named (by simpa [names,MethodDecl.select,eq_comm] using new)

end Taking

/-- The state of the search from an interface: what it has kept comes from types that the interface leads to, and
of the types that it has been at every name is taken and every embedded type was seen or is still to come. -/
structure Gathered (u : Universe) (n : NamedType) (found : List Selection) (seen pending : List NamedType) :
    Prop where
  kept : ∀ s ∈ found, ∃ x m, u.Inherits n x ∧ u.DeclaresMethod x m ∧ s = m.select false
  begun : n ∈ seen ∨ n ∈ pending
  led : ∀ x ∈ pending, u.Inherits n x
  taken : ∀ x ∈ seen, ∀ m, u.DeclaresMethod x m → m.name ∈ names found
  followed : ∀ x ∈ seen, ∀ y, u.EmbedsName x y → y ∈ seen ∨ y ∈ pending

namespace Gathered
variable {u : Universe} {n x : NamedType} {found methods : List Selection} {seen pending rest : List NamedType}

theorem start (u : Universe) (n : NamedType) : u.Gathered n [] [] [n] where
  kept := by simp
  begun := .inr List.mem_cons_self
  led := by
    intro x pending
    rw [List.mem_singleton.mp pending]
  taken := by simp
  followed := by simp

theorem skip (gathered : u.Gathered n found seen (x :: rest)) (known : x ∈ seen) :
    u.Gathered n found seen rest := by
  have still {y : NamedType} (before : y ∈ seen ∨ y ∈ x :: rest) : y ∈ seen ∨ y ∈ rest := by
    rw [List.mem_cons] at before
    rcases before with old | rfl | later
    · exact .inl old
    · exact .inl known
    · exact .inr later
  exact ⟨gathered.kept,still gathered.begun,fun y later => gathered.led y (List.mem_cons_of_mem _ later),
    gathered.taken,fun y old z embeds => still (gathered.followed y old z embeds)⟩

/-- A type is visited: the names that it declares are taken, and what it embeds is to come. -/
theorem visit (gathered : u.Gathered n found seen (x :: rest)) {more : List Selection} {next : List NamedType}
    (kept : ∀ s ∈ more, s ∈ found ∨ ∃ m, u.DeclaresMethod x m ∧ s = m.select false)
    (taken : ∀ name ∈ names found, name ∈ names more)
    (own : ∀ m, u.DeclaresMethod x m → m.name ∈ names more)
    (embedded : ∀ y, y ∈ next ↔ u.EmbedsName x y) : u.Gathered n more (x :: seen) (next ++ rest) := by
  have leads := gathered.led x List.mem_cons_self
  have still {y : NamedType} (before : y ∈ seen ∨ y ∈ x :: rest) : y ∈ x :: seen ∨ y ∈ next ++ rest := by
    rw [List.mem_cons] at before ⊢
    rw [List.mem_append]
    rcases before with old | rfl | later
    · exact .inl (.inr old)
    · exact .inl (.inl rfl)
    · exact .inr (.inr later)
  constructor
  case kept =>
    intro s member
    rcases kept s member with old | ⟨m,declares,rfl⟩
    · exact gathered.kept s old
    · exact ⟨x,m,leads,declares,rfl⟩
  case begun => exact still gathered.begun
  case led =>
    intro y later
    rcases List.mem_append.mp later with new | later
    · exact leads.tail ((embedded y).mp new)
    · exact gathered.led y (List.mem_cons_of_mem _ later)
  case taken =>
    intro y visited m declares
    rcases List.mem_cons.mp visited with rfl | old
    · exact own m declares
    · exact taken _ (gathered.taken y old m declares)
  case followed =>
    intro y visited z embeds
    rcases List.mem_cons.mp visited with rfl | old
    · exact .inr (List.mem_append_left _ ((embedded z).mpr embeds))
    · exact still (gathered.followed y old z embeds)

theorem outside (gathered : u.Gathered n found seen (x :: rest)) (unknown : u.find x = .ok none) :
    u.Gathered n found (x :: seen) rest := by
  change u.Gathered n found (x :: seen) ([] ++ rest)
  refine gathered.visit (fun s member => .inl member) (fun _ => id) ?_ ?_
  · rintro m ⟨d,declared,_⟩
    cases unknown.symm.trans declared
  · intro y
    constructor
    · intro none
      cases none
    · rintro ⟨d,declared,_⟩
      cases unknown.symm.trans declared

theorem declared (gathered : u.Gathered n found seen (x :: rest)) {d : TypeDecl}
    (declared : u.find x = .ok (some d)) :
    u.Gathered n (d.methods.foldl addNew found) (x :: seen) (d.embeddedNames.reverse ++ rest) := by
  refine gathered.visit ?_ ?_ ?_ ?_
  · intro s member
    exact (foldl_addNew_mem member).imp_right fun ⟨m,own,same⟩ => ⟨m,⟨d,declared,own⟩,same⟩
  · exact fun name old => ((foldl_addNew_extends d.methods found).map Selection.name).subset old
  · rintro m ⟨d',declared',own⟩
    cases declared.symm.trans declared'
    exact mem_names_foldl_addNew own
  · intro y
    rw [List.mem_reverse,mem_embeddedNames]
    constructor
    · exact fun member => ⟨d,declared,member⟩
    · rintro ⟨d',declared',member⟩
      cases declared.symm.trans declared'
      exact member

/-- A search that has come to its end has been everywhere. -/
theorem complete (gathered : u.Gathered n methods seen []) (inherits : u.Inherits n x) : x ∈ seen := by
  induction inherits with
  | refl => exact gathered.begun.resolve_right List.not_mem_nil
  | tail _ embeds ih => exact (gathered.followed _ ih _ embeds).resolve_right List.not_mem_nil

theorem run (ok : u.flatten found seen pending = .ok methods) (gathered : u.Gathered n found seen pending) :
    ∃ seen', u.Gathered n methods seen' [] := by
  fun_induction flatten u found seen pending with
  | case1 found seen =>
    cases ok
    exact ⟨seen,gathered⟩
  | case2 found seen x rest known ih => exact ih ok (gathered.skip known)
  | case3 => cases ok
  | case4 found seen x rest new unknown ih => exact ih ok (gathered.outside unknown)
  | case5 found seen x rest new d declared ih => exact ih ok (gathered.declared declared)

end Gathered

section Interfaces
variable {u : Universe} {n : NamedType} {d : TypeDecl} {methods : List Selection}

theorem flatten_extends {found : List Selection} {seen pending : List NamedType}
    (ok : u.flatten found seen pending = .ok methods) : found <+: methods := by
  fun_induction flatten u found seen pending with
  | case1 =>
    cases ok
    exact List.prefix_rfl
  | case2 _ _ _ _ _ ih => exact ih ok
  | case3 => cases ok
  | case4 _ _ _ _ _ _ ih => exact ih ok
  | case5 _ _ _ _ _ d _ ih => exact (foldl_addNew_extends d.methods _).trans (ih ok)

theorem increasing_sorted (distinct : (names (Text.sortBy (·.name) methods)).Nodup) :
    (names (Text.sortBy (·.name) methods)).Pairwise (· < ·) := by
  have apart := ((Text.sortBy_perm Selection.name methods).map Selection.name).nodup_iff.mp distinct
  exact List.pairwise_map.mpr (Text.increasing_sortBy apart)

theorem interfaceMethods_increasing (ok : u.interfaceMethods n = .ok methods) :
    (names methods).Pairwise (· < ·) := by
  have distinct := interfaceMethods_nodup ok
  obtain ⟨_,_,rfl⟩ := interfaceMethods_eq_ok.mp ok
  exact increasing_sorted distinct

theorem gathered_of_interfaceMethods (ok : u.interfaceMethods n = .ok methods) :
    ∃ seen, u.Gathered n methods seen [] := by
  obtain ⟨found,flat,rfl⟩ := interfaceMethods_eq_ok.mp ok
  obtain ⟨seen,gathered⟩ := Gathered.run flat (Gathered.start u n)
  have same : ∀ name, name ∈ names (Text.sortBy (·.name) found) ↔ name ∈ names found :=
    fun name => ((Text.sortBy_perm _ found).map Selection.name).mem_iff
  refine ⟨seen,?_,gathered.begun,gathered.led,?_,gathered.followed⟩
  · exact fun s member => gathered.kept s (Text.mem_sortBy.mp member)
  · exact fun x visited m declares => (same _).mpr (gathered.taken x visited m declares)

/-- What the interface itself declares comes before all that it inherits. -/
theorem first_mem_interfaceMethods (declared : u.find n = .ok (some d))
    (ok : u.interfaceMethods n = .ok methods) {m : MethodDecl} {name : String}
    (first : d.methods.find? (·.name == name) = some m) : m.select false ∈ methods := by
  obtain ⟨found,flat,rfl⟩ := interfaceMethods_eq_ok.mp ok
  rw [flatten_cons,if_neg List.not_mem_nil,declared] at flat
  rw [Text.mem_sortBy]
  exact (flatten_extends flat).subset (first_mem_foldl_addNew List.not_mem_nil first)

/-- The method set of an interface has the names that are declared by the types to which embedding by name leads
from it, in increasing order. For each of them it has one of the declarations, directly, and that of the interface
itself where there is one, the first one of the name. -/
theorem methods_inherited (declared : u.find n = .ok (some d)) (interface : d.kind = .interface)
    (ok : u.methodSet (.named n) = .ok methods) :
    (names methods).Pairwise (· < ·) ∧
      (∀ name, name ∈ names methods ↔ ∃ x m, u.Inherits n x ∧ u.DeclaresMethod x m ∧ m.name = name) ∧
      (∀ s ∈ methods, ∃ x m, u.Inherits n x ∧ u.DeclaresMethod x m ∧ s = m.select false) ∧
      ∀ s ∈ methods, ∀ m, d.methods.find? (·.name == s.name) = some m → s = m.select false := by
  have own : u.interfaceMethods n = .ok methods := (methodSet_of_interface declared interface).symm.trans ok
  obtain ⟨seen,gathered⟩ := gathered_of_interfaceMethods own
  refine ⟨interfaceMethods_increasing own,?_,gathered.kept,?_⟩
  · intro name
    constructor
    · intro among
      obtain ⟨s,member,rfl⟩ := List.mem_map.mp among
      obtain ⟨x,m,inherits,declares,rfl⟩ := gathered.kept s member
      exact ⟨x,m,inherits,declares,rfl⟩
    · rintro ⟨x,m,inherits,declares,rfl⟩
      exact gathered.taken x (gathered.complete inherits) m declares
  · intro s member m first
    have named : m.name = s.name := by simpa using List.find?_some first
    have also := first_mem_interfaceMethods declared own first
    exact List.inj_on_of_nodup_map (interfaceMethods_nodup own) member also named.symm

end Interfaces

namespace Sleepwalker

def walker : NamedType := ⟨"p","Walker"⟩

def sleeper : NamedType := ⟨"p","Sleeper"⟩

def method (name : String) (results : List Param) : MethodDecl := ⟨name,false,none,⟨[],results,false⟩⟩

def decl : TypeDecl := ⟨"Walker",.interface,.interface,
  [.named sleeper,.named ⟨"fmt","Stringer"⟩],[method "Walk" [⟨none,.error⟩]]⟩

/-- Walkers and sleepers embed each other, and both walk, the sleepers without an error. -/
def types : Universe := ⟨[⟨"p","p",[decl,
  ⟨"Sleeper",.interface,.interface,[.named walker],[method "Walk" [],method "Sleep" []]⟩]⟩]⟩

def methods : List Selection :=
  [(method "Sleep" []).select false,(method "Walk" [⟨none,.error⟩]).select false]

theorem find_walker : types.find walker = .ok (some decl) := by decide +kernel

theorem methodSet_walker : types.methodSet (.named walker) = .ok methods := by cbv

/-- The walker inherits that it sleeps, nobody declares that it flies, and it walks in its own way. -/
theorem walker_inherits : types.find walker = .ok (some decl) ∧ decl.kind = .interface ∧
    types.methodSet (.named walker) = .ok methods ∧
      (∃ x m, types.Inherits walker x ∧ types.DeclaresMethod x m ∧ m.name = "Sleep") ∧
      (¬ ∃ x m, types.Inherits walker x ∧ types.DeclaresMethod x m ∧ m.name = "Fly") ∧
      ∀ s ∈ methods, s.name = "Walk" → s = (method "Walk" [⟨none,.error⟩]).select false := by
  obtain ⟨_,declares,_,own⟩ := methods_inherited find_walker rfl methodSet_walker
  refine ⟨find_walker,rfl,methodSet_walker,(declares "Sleep").mp (by decide),
    (declares "Fly").not.mp (by decide),?_⟩
  intro s member named
  apply own s member
  rw [named]
  rfl

end Sleepwalker
end ProxyGen.Universe
