import ProxyGen.Proofs.Distances
import ProxyGen.Proofs.Evaluation

/-! Which methods a reference has. Of the types that offer a name only the nearest count, and they have to
offer it a single time among them. -/
namespace ProxyGen.Universe

/-- What a declared type offers on its own: an interface has the methods of all interfaces it embeds. -/
def offering (u : Universe) (x : NamedType) : List Selection :=
  match u.find x with
  | .ok (some d) =>
    if d.kind = .interface then
      match u.interfaceMethods x with
      | .ok methods => methods
      | .error _ => []
    else d.methods.map (·.select false)
  | _ => []

/-- No nearer type offers the name of the method, and at the distance one type does, once. -/
structure OfferedOnce (u : Universe) (n : NamedType) (k : Nat) (m : Selection) : Prop where
  nearest : ∀ j < k, ∀ x, u.AtDistance n j x → m.name ∉ names (u.offering x)
  once : ∃ x, u.AtDistance n k x ∧ m ∈ u.offering x ∧ (names (u.offering x)).count m.name = 1 ∧
    ∀ y, u.AtDistance n k y → m.name ∈ names (u.offering y) → y = x

/-- The method as it is reached through a reference. -/
def referenced (m : Selection) : Selection := { m with indirect := true }

theorem mem_names {m : Selection} {methods : List Selection} (member : m ∈ methods) :
    m.name ∈ names methods := List.mem_map_of_mem member

theorem count_names (name : String) (methods : List Selection) :
    (names methods).count name = methods.countP (·.name == name) := by
  rw [names,List.count_eq_countP,List.countP_map]
  rfl

theorem names_referenced (methods : List Selection) : names (methods.map referenced) = names methods := by
  rw [names,List.map_map]
  rfl

theorem countP_flatMap_eq_zero {α β : Type} {f : α → List β} {p : β → Bool} {parts : List α} :
    (parts.flatMap f).countP p = 0 ↔ ∀ x ∈ parts, (f x).countP p = 0 := by
  rw [List.countP_flatMap,List.sum_eq_zero_iff_forall_eq_nat,List.forall_mem_map]
  rfl

/-- An element with a property is the only one if one part has it once and the other parts do not. -/
theorem countP_flatMap_eq_one {α β : Type} {f : α → List β} {p : β → Bool} {parts : List α}
    (distinct : parts.Nodup) : (parts.flatMap f).countP p = 1 ↔
      ∃ x ∈ parts, (f x).countP p = 1 ∧ ∀ y ∈ parts, 0 < (f y).countP p → y = x := by
  induction parts with
  | nil => simp
  | cons first rest ih =>
    obtain ⟨single,distinct⟩ := List.nodup_cons.mp distinct
    rw [List.flatMap_cons,List.countP_append]
    constructor
    · intro one
      by_cases here : (f first).countP p = 0
      · obtain ⟨x,later,once,only⟩ := (ih distinct).mp (by omega)
        refine ⟨x,List.mem_cons_of_mem _ later,once,?_⟩
        intro y among some
        rcases List.mem_cons.mp among with rfl | among
        · omega
        · exact only y among some
      · have none := countP_flatMap_eq_zero.mp (show (rest.flatMap f).countP p = 0 by omega)
        refine ⟨first,List.mem_cons_self,by omega,?_⟩
        intro y among some
        rcases List.mem_cons.mp among with rfl | among
        · rfl
        · exact absurd (none y among) (Nat.ne_of_gt some)
    · rintro ⟨x,among,once,only⟩
      rcases List.mem_cons.mp among with rfl | among
      · have none : (rest.flatMap f).countP p = 0 := by
          refine countP_flatMap_eq_zero.mpr fun y later => ?_
          by_contra some
          exact single (only y (List.mem_cons_of_mem _ later) (Nat.pos_of_ne_zero some) ▸ later)
        omega
      · have none : (f first).countP p = 0 := by
          by_contra some
          exact single (only first List.mem_cons_self (Nat.pos_of_ne_zero some) ▸ among)
        have one := (ih distinct).mpr
          ⟨x,among,once,fun y later => only y (List.mem_cons_of_mem _ later)⟩
        omega

section Promotion
variable {u : Universe} {n x : NamedType} {k : Nat}

theorem offeredBy_marked (u : Universe) (x : NamedType × Bool) :
    u.offeredBy (marked x) = (u.offering x.1).map referenced := by
  unfold offeredBy offering offers marked
  rcases found : u.find x.1 with e | _ | d
  · rfl
  · rfl
  · by_cases kind : d.kind = .interface
    · simp only [kind,if_true]
      cases u.interfaceMethods x.1 <;> rfl
    · simp only [kind,if_false,Bool.true_or,List.filter_true,List.map_map]
      rfl

theorem mem_offeredIn_reference {s : Selection} : s ∈ u.offeredIn n true k ↔
    ∃ x, u.AtDistance n k x ∧ ∃ m ∈ u.offering x, s = referenced m := by
  have visited (x : NamedType) : x ∈ (u.round n true k).map Prod.fst ↔ u.AtDistance n k x := mem_round
  unfold offeredIn
  rw [round_marked u n true,List.flatMap_map,List.mem_flatMap]
  simp only [offeredBy_marked,List.mem_map,← visited]
  constructor
  · rintro ⟨x,visited,m,own,rfl⟩
    exact ⟨x.1,⟨x,visited,rfl⟩,m,own,rfl⟩
  · rintro ⟨_,⟨x,visited,rfl⟩,m,own,rfl⟩
    exact ⟨x,visited,m,own,rfl⟩

theorem mem_names_reference {name : String} : name ∈ names (u.offeredIn n true k) ↔
    ∃ x, u.AtDistance n k x ∧ name ∈ names (u.offering x) := by
  constructor
  · intro among
    obtain ⟨s,offered,rfl⟩ := List.mem_map.mp among
    obtain ⟨x,distance,m,own,rfl⟩ := mem_offeredIn_reference.mp offered
    have among := mem_names own
    exact ⟨x,distance,among⟩
  · rintro ⟨x,distance,among⟩
    obtain ⟨m,own,rfl⟩ := List.mem_map.mp among
    exact List.mem_map.mpr ⟨referenced m,mem_offeredIn_reference.mpr ⟨x,distance,m,own,rfl⟩,rfl⟩

/-- A name is offered once at a distance if one type there offers it once and the others do not. -/
theorem count_reference_eq_one {name : String} : (u.offeredIn n true k).countP (·.name == name) = 1 ↔
    ∃ x, u.AtDistance n k x ∧ (names (u.offering x)).count name = 1 ∧
      ∀ y, u.AtDistance n k y → name ∈ names (u.offering y) → y = x := by
  have types : u.offeredIn n true k =
      ((u.round n true k).map Prod.fst).flatMap fun x => (u.offering x).map referenced := by
    rw [offeredIn,round_marked u n true,List.flatMap_map,List.map_map,List.flatMap_map]
    exact congrArg (List.flatMap · _) (funext (offeredBy_marked u))
  rw [types,countP_flatMap_eq_one (nodup_round u n true k)]
  simp only [mem_round,← count_names,names_referenced,List.count_pos_iff]

theorem selectedIn_reference_iff {s : Selection} :
    u.SelectedIn n true k s ↔ ∃ m, u.OfferedOnce n k m ∧ s = referenced m := by
  constructor
  · rintro ⟨offered,nearest,once⟩
    obtain ⟨x,distance,m,own,rfl⟩ := mem_offeredIn_reference.mp offered
    obtain ⟨only,there,one,others⟩ := count_reference_eq_one.mp once
    have among := mem_names own
    obtain rfl := others x distance among
    refine ⟨m,⟨?_,x,distance,own,one,others⟩,rfl⟩
    intro j nearer y before among
    exact nearest j nearer (mem_names_reference.mpr ⟨y,before,among⟩)
  · rintro ⟨m,⟨nearest,x,distance,own,one,others⟩,rfl⟩
    refine ⟨mem_offeredIn_reference.mpr ⟨x,distance,m,own,rfl⟩,?_,
      count_reference_eq_one.mpr ⟨x,distance,one,others⟩⟩
    intro j nearer among
    obtain ⟨y,before,among⟩ := mem_names_reference.mp among
    exact nearest j nearer y before among

/-- The methods of the reference to a declared type are those that the nearest types that know their names
offer a single time, as they are reached through the reference. -/
theorem mem_methodSet_reference_iff {d : TypeDecl} {methods : List Selection}
    (declared : u.find n = .ok (some d)) (concrete : d.kind ≠ .interface)
    (ok : u.methodSet (.pointer (.named n)) = .ok methods) (s : Selection) :
    s ∈ methods ↔ ∃ k m, u.OfferedOnce n k m ∧ s = { m with indirect := true } := by
  have promoted : u.promotedMethods n true = .ok methods := by
    simpa [methodSet,namedMethods,declared,concrete] using ok
  rw [mem_promotedMethods_iff promoted]
  exact exists_congr fun _ => selectedIn_reference_iff

end Promotion

namespace Kennel

abbrev named (name : String) : NamedType := ⟨"p",name⟩

def method (name : String) (pointerReceiver : Bool) : MethodDecl :=
  ⟨name,pointerReceiver,none,⟨[],[],false⟩⟩

def kennel : TypeDecl := ⟨"Kennel",.struct,.struct,
  [.named (named "Dog"),.pointer (.named (named "Cat")),.named ⟨"time","Time"⟩],[method "Open" true]⟩

def dog : TypeDecl := ⟨"Dog",.struct,.struct,
  [.named (named "Tag"),.pointer (.named (named "Kennel"))],[method "Name" false]⟩

def cat : TypeDecl := ⟨"Cat",.struct,.struct,
  [.pointer (.named (named "Tag"))],[method "Name" true,method "Purr" true]⟩

def tag : TypeDecl := ⟨"Tag",.struct,.struct,[.named (named "Lost")],[method "Number" true]⟩

def lost : TypeDecl := ⟨"Lost",.interface,.interface,[.named (named "Found")],[method "Since" false]⟩

def found : TypeDecl := ⟨"Found",.interface,.interface,
  [.named (named "Lost")],[method "Since" false,method "Where" false]⟩

/-- A kennel embeds a dog, which embeds the kennel again, and a cat. Both have names and tags, and a tag
embeds two interfaces that embed each other. -/
def types : Universe := ⟨[⟨"p","p",[kennel,dog,cat,tag,lost,found]⟩]⟩

def selection (name : String) : Selection := ⟨name,none,⟨[],[],false⟩,true⟩

theorem find_kennel : types.find (named "Kennel") = .ok (some kennel) := by decide +kernel

theorem methodSet_kennel : types.methodSet (.pointer (.named (named "Kennel"))) =
    .ok [selection "Number",selection "Open",selection "Purr",selection "Since",selection "Where"] := by
  have dog : types.find (named "Dog") = .ok (some dog) := by decide +kernel
  have cat : types.find (named "Cat") = .ok (some cat) := by decide +kernel
  have tag : types.find (named "Tag") = .ok (some tag) := by decide +kernel
  have lost : types.find (named "Lost") = .ok (some lost) := by decide +kernel
  have time : types.find ⟨"time","Time"⟩ = .ok none := by decide +kernel
  have flattened : types.interfaceMethods (named "Lost") =
      .ok [(method "Since" false).select false,(method "Where" false).select false] := by cbv
  simp [methodSet,namedMethods,promotedMethods,promote_cons,promote,visit,offers,selected,find_kennel,
    dog,cat,tag,lost,time,flattened,Kennel.kennel,Kennel.dog,Kennel.cat,Kennel.tag,Kennel.lost,
    TypeDecl.embeddedFields,MethodDecl.select,method]
  cbv

/-- The names of the dog and of the cat cancel each other; the tag, which both have, counts once. -/
theorem kennel_offers :
    types.find (named "Kennel") = .ok (some kennel) ∧ kennel.kind ≠ .interface ∧
      types.methodSet (.pointer (.named (named "Kennel"))) =
        .ok [selection "Number",selection "Open",selection "Purr",selection "Since",selection "Where"] ∧
      (∃ k m, types.OfferedOnce (named "Kennel") k m ∧ selection "Number" = { m with indirect := true }) ∧
      ¬ ∃ k m, types.OfferedOnce (named "Kennel") k m ∧ selection "Name" = { m with indirect := true } := by
  have struct : kennel.kind ≠ .interface := by decide
  refine ⟨find_kennel,struct,methodSet_kennel,?_,?_⟩
  · exact (mem_methodSet_reference_iff find_kennel struct methodSet_kennel _).mp (by decide)
  · intro once
    have among := (mem_methodSet_reference_iff find_kennel struct methodSet_kennel _).mpr once
    revert among
    decide

end Kennel

end ProxyGen.Universe
