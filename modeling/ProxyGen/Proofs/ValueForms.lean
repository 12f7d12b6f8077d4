import ProxyGen.Proofs.Promotion

/-! What the reference to a type has of the methods of the type itself. Types that are not reached through a
reference withhold the methods that want one, and withheld methods neither hide nor cancel others. -/
namespace ProxyGen

/-- The same method, reached directly or through a reference. -/
structure Selection.Agrees (s s' : Selection) : Prop where
  name : s.name = s'.name
  receiverName : s.receiverName = s'.receiverName
  signature : s.signature = s'.signature

namespace Universe

/-- The methods that a type does not offer because it is not reached through a reference. -/
def withheldBy (u : Universe) (x : NamedType × Bool) : List Selection :=
  match u.find x.1 with
  | .ok (some d) =>
    if d.kind = .interface ∨ x.2 = true then []
    else (d.methods.filter (·.pointerReceiver)).map (·.select false)
  | _ => []

def withheldIn (u : Universe) (n : NamedType) (k : Nat) : List Selection :=
  (u.round n false k).flatMap u.withheldBy

theorem countP_flatMap_add {α β : Type} {f g h : α → List β} {p : β → Bool} (parts : List α)
    (each : ∀ x, (f x).countP p = (g x).countP p + (h x).countP p) :
    (parts.flatMap f).countP p = (parts.flatMap g).countP p + (parts.flatMap h).countP p := by
  induction parts with
  | nil => rfl
  | cons x rest ih =>
    simp only [List.flatMap_cons,List.countP_append]
    rw [each,ih]
    omega

section Forms
variable {u : Universe} {n : NamedType} {k : Nat}

/-- What a type has it offers or withholds. -/
theorem count_offering (u : Universe) (name : String) (x : NamedType × Bool) :
    (names (u.offering x.1)).count name =
      (names (u.offeredBy x)).count name + (names (u.withheldBy x)).count name := by
  unfold offering offeredBy withheldBy offers
  rcases found : u.find x.1 with e | _ | d
  · rfl
  · rfl
  · by_cases kind : d.kind = .interface
    · simp only [kind,if_true,true_or]
      cases u.interfaceMethods x.1 with
      | error e => rfl
      | ok methods =>
        simp [names,List.map_map,Function.comp_def]
    · simp only [kind,if_false,false_or,count_names,List.countP_map]
      cases x.2 with
      | true => simp [MethodDecl.select,Function.comp_def]
      | false =>
        rw [List.countP_eq_countP_filter_add d.methods _ (fun m => !m.pointerReceiver)]
        simp [MethodDecl.select,Function.comp_def]

theorem count_reference (u : Universe) (n : NamedType) (k : Nat) (name : String) :
    (u.offeredIn n true k).countP (·.name == name) =
      (u.offeredIn n false k).countP (·.name == name) + (u.withheldIn n k).countP (·.name == name) := by
  unfold offeredIn withheldIn
  rw [round_marked u n false,List.flatMap_map]
  refine countP_flatMap_add _ fun x => ?_
  rw [offeredBy_marked,← count_names,← count_names,← count_names,names_referenced,count_offering]

theorem mem_names_iff {name : String} {methods : List Selection} :
    name ∈ names methods ↔ 0 < methods.countP (·.name == name) := by
  rw [← count_names,List.count_pos_iff]

/-- What a type offers is a method that it has. -/
theorem offering_of_offeredBy {s : Selection} {x : NamedType × Bool} (offered : s ∈ u.offeredBy x) :
    ∃ m ∈ u.offering x.1, referenced m = referenced s := by
  unfold offeredBy offers at offered
  unfold offering
  rcases found : u.find x.1 with e | _ | d <;> simp only [found] at offered ⊢
  · cases offered
  · cases offered
  · by_cases kind : d.kind = .interface <;> simp only [kind,if_true,if_false] at offered ⊢
    · cases flat : u.interfaceMethods x.1 <;> simp only [flat] at offered ⊢
      next => cases offered
      next methods =>
        obtain ⟨m,own,rfl⟩ := List.mem_map.mp offered
        exact ⟨m,own,rfl⟩
    · obtain ⟨m,kept,rfl⟩ := List.mem_map.mp offered
      exact ⟨m.select false,List.mem_map_of_mem (List.mem_filter.mp kept).1,rfl⟩

theorem offered_reference {s : Selection} (offered : s ∈ u.offeredIn n false k) :
    referenced s ∈ u.offeredIn n true k := by
  obtain ⟨x,visited,own⟩ := List.mem_flatMap.mp offered
  obtain ⟨m,has,same⟩ := offering_of_offeredBy own
  rw [offeredIn,round_marked u n false,List.flatMap_map,List.mem_flatMap]
  exact ⟨x,visited,by rw [offeredBy_marked,← same]; exact List.mem_map_of_mem has⟩

/-- The reference offers what the type itself offers or withholds. -/
theorem names_reference_iff {name : String} : name ∈ names (u.offeredIn n true k) ↔
    name ∈ names (u.offeredIn n false k) ∨ name ∈ names (u.withheldIn n k) := by
  rw [mem_names_iff,mem_names_iff,mem_names_iff,count_reference]
  omega

theorem SelectedIn.reference {s : Selection} (direct : u.SelectedIn n false k s)
    (visible : ∀ j ≤ k, s.name ∉ names (u.withheldIn n j)) : u.SelectedIn n true k (referenced s) where
  offered := offered_reference direct.offered
  nearest := by
    intro j nearer among
    rcases names_reference_iff.mp among with before | hidden
    · exact direct.nearest j nearer before
    · exact visible j (by omega) hidden
  once := by
    have none := mem_names_iff.not.mp (visible k (by omega))
    have once := direct.once
    have sum := count_reference u n k s.name
    simp only [referenced]
    omega

/-- Where the reference selects a name in the round in which the type itself does, nothing was withheld. -/
theorem SelectedIn.visible {s s' : Selection} {j : Nat} (direct : u.SelectedIn n false k s)
    (reference : u.SelectedIn n true j s') (same : s'.name = s.name) (within : k ≤ j) :
    ∀ i ≤ k, s.name ∉ names (u.withheldIn n i) := by
  intro i nearer hidden
  have there := mem_names direct.offered
  have latest : j = k := by
    by_contra later
    apply reference.nearest k (by omega)
    rw [same]
    exact names_reference_iff.mpr (.inl there)
  subst latest
  have here : i = j := by
    by_contra before
    apply reference.nearest i (by omega)
    rw [same]
    exact names_reference_iff.mpr (.inr hidden)
  subst here
  have once := reference.once
  rw [same,count_reference,direct.once] at once
  have some := mem_names_iff.mp hidden
  omega

/-- The reference has a method of the type exactly if no type at its distance or nearer withholds the name, or
if a nearer type offers just the same method as the only one there. -/
theorem value_method_kept_iff {d : TypeDecl} {methods all : List Selection}
    (declared : u.find n = .ok (some d)) (concrete : d.kind ≠ .interface)
    (value : u.methodSet (.named n) = .ok methods)
    (reference : u.methodSet (.pointer (.named n)) = .ok all) {s : Selection} (member : s ∈ methods) :
    ∃ k, u.SelectedIn n false k s ∧
      ((∃ s' ∈ all, s'.Agrees s) ↔
        (∀ j ≤ k, s.name ∉ names (u.withheldIn n j)) ∨
          ∃ j < k, ∃ m, u.OfferedOnce n j m ∧ m.Agrees s) := by
  have own : u.promotedMethods n false = .ok methods := by
    simpa [methodSet,namedMethods,declared,concrete] using value
  have promoted : u.promotedMethods n true = .ok all := by
    simpa [methodSet,namedMethods,declared,concrete] using reference
  obtain ⟨k,direct⟩ := (mem_promotedMethods_iff own s).mp member
  refine ⟨k,direct,?_⟩
  constructor
  · rintro ⟨s',among,agrees⟩
    obtain ⟨j,chosen⟩ := (mem_promotedMethods_iff promoted s').mp among
    by_cases nearer : j < k
    · obtain ⟨m,once,rfl⟩ := selectedIn_reference_iff.mp chosen
      exact .inr ⟨j,nearer,m,once,⟨agrees.name,agrees.receiverName,agrees.signature⟩⟩
    · exact .inl (direct.visible chosen agrees.name (by omega))
  · rintro (visible | ⟨j,_,m,once,agrees⟩)
    · exact ⟨referenced s,(mem_promotedMethods_iff promoted _).mpr ⟨k,direct.reference visible⟩,rfl,rfl,rfl⟩
    · exact ⟨referenced m,(mem_promotedMethods_iff promoted _).mpr
        ⟨j,selectedIn_reference_iff.mpr ⟨m,once,rfl⟩⟩,agrees.name,agrees.receiverName,agrees.signature⟩

end Forms

namespace Rivals

def band : NamedType := ⟨"p","Band"⟩

def decl : TypeDecl := ⟨"Band",.struct,.struct,[.named ⟨"p","Drum"⟩,.named ⟨"p","Horn"⟩],[]⟩

/-- Both parts of the band have `Play`, the first one with a receiver that is a reference. -/
def types : Universe := ⟨[⟨"p","p",[decl,
  ⟨"Drum",.struct,.struct,[],[⟨"Play",true,none,⟨[],[],false⟩⟩]⟩,
  ⟨"Horn",.struct,.struct,[],[⟨"Play",false,none,⟨[],[],false⟩⟩]⟩]⟩]⟩

def play : Selection := ⟨"Play",none,⟨[],[],false⟩,false⟩

theorem find_band : types.find band = .ok (some decl) := by decide +kernel

theorem methodSet_band : types.methodSet (.named band) = .ok [play] := by cbv

theorem methodSet_reference : types.methodSet (.pointer (.named band)) = .ok [] := by cbv

/-- The band has the method of its second part, and the reference to the band has no method at all. -/
theorem band_lost : types.find band = .ok (some decl) ∧ decl.kind ≠ .interface ∧
    types.methodSet (.named band) = .ok [play] ∧ types.methodSet (.pointer (.named band)) = .ok [] ∧
      ¬ ∀ s ∈ [play], ∃ s' ∈ ([] : List Selection), s'.Agrees s :=
  ⟨find_band,by decide,methodSet_band,methodSet_reference,by simp⟩

/-- The first part withholds the name at the distance of the second. -/
theorem band_withholds : types.find band = .ok (some decl) ∧ decl.kind ≠ .interface ∧
    types.methodSet (.named band) = .ok [play] ∧ types.methodSet (.pointer (.named band)) = .ok [] ∧
      play ∈ [play] ∧
      ∃ k, types.SelectedIn band false k play ∧ ∃ j ≤ k, play.name ∈ names (types.withheldIn band j) := by
  have struct : decl.kind ≠ .interface := by decide
  have member : play ∈ [play] := List.mem_cons_self
  refine ⟨find_band,struct,methodSet_band,methodSet_reference,member,?_⟩
  obtain ⟨k,direct,kept⟩ :=
    value_method_kept_iff find_band struct methodSet_band methodSet_reference member
  refine ⟨k,direct,?_⟩
  by_contra visible
  obtain ⟨s',among,_⟩ := kept.mpr (.inl fun j within hidden => visible ⟨j,within,hidden⟩)
  cases among

end Rivals
end Universe
end ProxyGen
