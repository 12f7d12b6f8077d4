import Mathlib.Data.List.Perm.Subperm
import ProxyGen.Proofs.Distances
import ProxyGen.Proofs.Flattening

/-! Where promoted methods come from. The search through embedded fields carries along whether it has gone through a
reference, and this is so for each type just if the fields that led to it have one; with it go the methods that
the type hands over. The rounds of the search are no more than there are declared types to lie on its way. -/
namespace ProxyGen.Universe

/-- Leads from a type to another one, field by field. -/
inductive Route (u : Universe) (n : NamedType) : List (NamedType × Bool) → NamedType → Prop
  | here : Route u n [] n
  | field {fields : List (NamedType × Bool)} {x : NamedType} {field : NamedType × Bool}
      (route : Route u n fields x) (has : u.HasField x field) : Route u n (fields ++ [field]) field.1

def crossesReference (fields : List (NamedType × Bool)) : Bool := fields.any Prod.snd

/-- What a type hands over at the end of a route, which crosses a reference or not: a method that it declares, if it
has a receiver that can be had, or any method of the method set of an interface. -/
inductive HandsOver (u : Universe) (x : NamedType) (crosses : Bool) : Selection → Prop
  | declared {d : TypeDecl} {m : MethodDecl} (found : u.find x = .ok (some d)) (concrete : d.kind ≠ .interface)
      (own : m ∈ d.methods) (reachable : m.pointerReceiver = true → crosses = true) :
      HandsOver u x crosses (m.select crosses)
  | flattened {d : TypeDecl} {methods : List Selection} {m : Selection} (found : u.find x = .ok (some d))
      (interface : d.kind = .interface) (known : u.methodSet (.named x) = .ok methods) (member : m ∈ methods) :
      HandsOver u x crosses { m with indirect := crosses }

section Routes
variable {u : Universe} {n x : NamedType} {viaReference : Bool} {k : Nat}

theorem path_iff_route : u.Path n k x ↔ ∃ fields, u.Route n fields x ∧ fields.length = k := by
  constructor
  · intro path
    induction path with
    | self => exact ⟨[],.here,rfl⟩
    | field _ embeds ih =>
      obtain ⟨fields,route,rfl⟩ := ih
      obtain ⟨byReference,has⟩ := embeds_iff.mp embeds
      exact ⟨_,route.field has,List.length_append⟩
  · rintro ⟨fields,route,rfl⟩
    induction route with
    | here => exact .self
    | field _ has ih =>
      rw [List.length_append]
      exact .field ih (embeds_iff.mpr ⟨_,has⟩)

theorem fresh_subset {seen : List NamedType} {level : List (NamedType × Bool)} :
    ∀ x ∈ fresh seen level, x ∈ level := by
  induction level generalizing seen with
  | nil => simp [fresh]
  | cons first rest ih =>
    intro x member
    rw [fresh] at member
    split at member
    next => exact List.mem_cons_of_mem _ (ih x member)
    next =>
      rcases List.mem_cons.mp member with rfl | later
      · exact List.mem_cons_self
      · exact List.mem_cons_of_mem _ (ih x later)

/-- A type that is to be visited lies at the end of a route, and it carries the mark of that route. -/
theorem route_of_frontier {x : NamedType × Bool} (member : x ∈ (u.frontier n viaReference k).2) :
    ∃ fields, u.Route n fields x.1 ∧ fields.length = k ∧ x.2 = (viaReference || crossesReference fields) := by
  induction k generalizing x with
  | zero =>
    obtain rfl : x = (n,viaReference) := by simpa [frontier] using member
    exact ⟨[],.here,rfl,(Bool.or_false _).symm⟩
  | succ k ih =>
    rw [frontier_succ,List.mem_flatMap] at member
    obtain ⟨before,visited,later⟩ := member
    obtain ⟨fields,route,rfl,mark⟩ := ih (fresh_subset before visited)
    obtain ⟨byReference,has,flag⟩ := mem_fieldsOf_iff.mp later
    refine ⟨fields ++ [(x.1,byReference)],route.field has,List.length_append,?_⟩
    rw [flag,mark,crossesReference,crossesReference,List.any_append,Bool.or_assoc]
    simp

theorem handsOver_of_offeredBy {s : Selection} (offered : s ∈ u.offeredBy (x,viaReference)) :
    u.HandsOver x viaReference s := by
  unfold offeredBy offers at offered
  rcases found : u.find x with e | _ | d <;> simp only [found] at offered
  · cases offered
  · cases offered
  · by_cases kind : d.kind = .interface <;> simp only [kind,if_true,if_false] at offered
    · cases flat : u.interfaceMethods x <;> simp only [flat] at offered
      next => cases offered
      next methods =>
        obtain ⟨m,member,rfl⟩ := List.mem_map.mp offered
        exact .flattened found kind ((methodSet_of_interface found kind).trans flat) member
    · obtain ⟨m,kept,rfl⟩ := List.mem_map.mp offered
      obtain ⟨own,reachable⟩ := List.mem_filter.mp kept
      refine .declared found kind own fun pointer => ?_
      simpa [pointer] using reachable

theorem route_of_offeredIn {s : Selection} (offered : s ∈ u.offeredIn n false k) :
    ∃ fields x, u.Route n fields x ∧ u.HandsOver x (crossesReference fields) s := by
  obtain ⟨⟨x,mark⟩,visited,own⟩ := List.mem_flatMap.mp offered
  obtain ⟨fields,route,_,same⟩ := route_of_frontier (fresh_subset _ visited)
  obtain rfl : mark = crossesReference fields := same
  exact ⟨fields,x,route,handsOver_of_offeredBy own⟩

theorem HandsOver.indirect {crosses : Bool} {s : Selection} (handsOver : u.HandsOver x crosses s) :
    s.indirect = crosses := by
  cases handsOver <;> rfl

end Routes

section Rounds
variable {u : Universe} {n x : NamedType} {viaReference : Bool} {k : Nat}

/-- The types before the end of a shortest path are declared and differ from each other. -/
theorem AtDistance.nearer (far : u.AtDistance n k x) : ∃ nearer : List NamedType, nearer.length = k ∧
    nearer.Nodup ∧ ∀ y ∈ nearer, y ∈ u.declared.map Prod.fst ∧ ∃ j < k, u.AtDistance n j y := by
  induction k generalizing x with
  | zero => exact ⟨[],rfl,List.nodup_nil,by simp⟩
  | succ k ih =>
    obtain ⟨y,distance,d,declared,_⟩ := far.before
    obtain ⟨nearer,length,distinct,known⟩ := ih distance
    refine ⟨y :: nearer,congrArg Nat.succ length,List.nodup_cons.mpr ⟨?_,distinct⟩,?_⟩
    · intro member
      obtain ⟨_,j,before,other⟩ := known y member
      exact absurd (other.unique distance) (by omega)
    · intro z member
      rcases List.mem_cons.mp member with rfl | member
      · exact ⟨List.mem_map_of_mem (find_eq_some declared),k,by omega,distance⟩
      · obtain ⟨known,j,before,other⟩ := known z member
        exact ⟨known,j,by omega,other⟩

theorem AtDistance.le_declared (far : u.AtDistance n k x) : k ≤ u.declared.length := by
  obtain ⟨nearer,rfl,distinct,known⟩ := far.nearer
  have within := (distinct.subperm fun y member => (known y member).1).length_le
  rwa [List.length_map] at within

/-- The search has nothing left to visit once it has gone as many rounds as there are declared types, and two. -/
theorem frontier_ends (u : Universe) (n : NamedType) (viaReference : Bool) :
    (u.frontier n viaReference (u.declared.length + 2)).2 = [] := by
  have empty : u.round n viaReference (u.declared.length + 1) = [] := by
    rw [List.eq_nil_iff_forall_not_mem]
    intro x visited
    have far : u.AtDistance n _ x.1 := mem_round.mp (List.mem_map_of_mem visited)
    have within := far.le_declared
    omega
  rw [frontier_succ,empty]
  rfl

theorem promotedMethods_increasing {methods : List Selection}
    (ok : u.promotedMethods n viaReference = .ok methods) : (names methods).Pairwise (· < ·) := by
  have distinct := promotedMethods_nodup ok
  obtain ⟨_,_,rfl⟩ := promotedMethods_eq_ok.mp ok
  exact increasing_sorted distinct

/-- The methods of a declared type that is no interface are found in so many rounds, are in the order of names, and
were each handed over at the end of some route: directly if it has no reference, and then no method is among
them that has to be called through one. -/
theorem promoted_along_routes {d : TypeDecl} {methods : List Selection} (declared : u.find n = .ok (some d))
    (concrete : d.kind ≠ .interface) (ok : u.methodSet (.named n) = .ok methods) :
    (u.frontier n false (u.declared.length + 2)).2 = [] ∧ (names methods).Pairwise (· < ·) ∧
      ∀ s ∈ methods, ∃ fields x, u.Route n fields x ∧ u.HandsOver x (crossesReference fields) s ∧
        (s.indirect = true ↔ ∃ field ∈ fields, field.2 = true) := by
  have own : u.promotedMethods n false = .ok methods := (methodSet_of_concrete declared concrete).1.symm.trans ok
  refine ⟨frontier_ends u n false,promotedMethods_increasing own,?_⟩
  intro s member
  obtain ⟨k,selected⟩ := (mem_promotedMethods_iff own s).mp member
  obtain ⟨fields,x,route,handsOver⟩ := route_of_offeredIn selected.offered
  refine ⟨fields,x,route,handsOver,?_⟩
  rw [handsOver.indirect]
  exact List.any_eq_true

end Rounds

namespace Fleet

abbrev named (name : String) : NamedType := ⟨"p",name⟩

def method (name : String) (pointerReceiver : Bool) : MethodDecl := ⟨name,pointerReceiver,none,⟨[],[],false⟩⟩

def decl : TypeDecl := ⟨"Van",.struct,.struct,
  [.named (named "Engine"),.pointer (.named (named "Trailer")),.named ⟨"time","Time"⟩],[method "Drive" false]⟩

def engine : TypeDecl := ⟨"Engine",.struct,.struct,[.pointer (.named (named "Van"))],
  [method "Start" true,method "Stop" false]⟩

def trailer : TypeDecl := ⟨"Trailer",.struct,.struct,[.named (named "Lights")],[method "Tow" true]⟩

def lights : TypeDecl := ⟨"Lights",.interface,.interface,[],[method "On" false]⟩

/-- A van has an engine, which has the van again, and the reference to a trailer, which has lights. Starting the
engine and towing want a reference. -/
def types : Universe := ⟨[⟨"p","p",[decl,engine,trailer,lights]⟩]⟩

def methods : List Selection :=
  [(method "Drive" false).select false,(method "On" false).select true,(method "Stop" false).select false,
    (method "Tow" true).select true]

theorem find_van : types.find (named "Van") = .ok (some decl) := by decide +kernel

theorem methodSet_van : types.methodSet (.named (named "Van")) = .ok methods := by
  have engine : types.find (named "Engine") = .ok (some engine) := by decide +kernel
  have trailer : types.find (named "Trailer") = .ok (some trailer) := by decide +kernel
  have lights : types.find (named "Lights") = .ok (some lights) := by decide +kernel
  have time : types.find ⟨"time","Time"⟩ = .ok none := by decide +kernel
  have flattened : types.interfaceMethods (named "Lights") = .ok [(method "On" false).select false] := by cbv
  simp [methodSet,namedMethods,promotedMethods,promote_cons,promote,visit,offers,selected,find_van,engine,
    trailer,lights,time,flattened,decl,Fleet.engine,Fleet.trailer,Fleet.lights,
    TypeDecl.embeddedFields,MethodDecl.select,method]
  cbv

/-- Six rounds are enough for four declared types, and a way leads to the method of the trailer through a
reference. -/
theorem van_routes : types.find (named "Van") = .ok (some decl) ∧ decl.kind ≠ .interface ∧
    types.methodSet (.named (named "Van")) = .ok methods ∧ (types.frontier (named "Van") false 6).2 = [] ∧
      ∃ fields x, types.Route (named "Van") fields x ∧
        types.HandsOver x (crossesReference fields) ((method "Tow" true).select true) ∧
          ∃ field ∈ fields, field.2 = true := by
  have struct : decl.kind ≠ .interface := by decide
  obtain ⟨ends,_,routes⟩ := promoted_along_routes find_van struct methodSet_van
  obtain ⟨fields,x,route,handsOver,mark⟩ := routes ((method "Tow" true).select true) (by decide)
  exact ⟨find_van,struct,methodSet_van,ends,fields,x,route,handsOver,mark.mp rfl⟩

end Fleet
end ProxyGen.Universe
