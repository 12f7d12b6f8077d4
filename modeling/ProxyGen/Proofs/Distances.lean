import Mathlib.Data.Nat.Find
import ProxyGen.Proofs.MethodNames

/-! How far embedded types lie from a type. The search through them goes in rounds, and round after round it
visits the types at one distance, each of them once: it has seen those that lie nearer, and what a type embeds
lies at most one field farther than the type. -/
namespace ProxyGen.Universe

/-- A type that is no interface has a field that embeds another type, by value or by reference. -/
def Embeds (u : Universe) (n n' : NamedType) : Prop :=
  ∃ d, u.find n = .ok (some d) ∧ d.kind ≠ .interface ∧
    (.named n' ∈ d.embeds ∨ .pointer (.named n') ∈ d.embeds)

/-- A type that is no interface has this field that embeds another type, by reference if the mark is set. -/
def HasField (u : Universe) (x : NamedType) (field : NamedType × Bool) : Prop :=
  ∃ d, u.find x = .ok (some d) ∧ d.kind ≠ .interface ∧
    (if field.2 then .pointer (.named field.1) else .named field.1) ∈ d.embeds

/-- Leads down so many embedded fields. -/
inductive Path (u : Universe) (n : NamedType) : Nat → NamedType → Prop
  | self : Path u n 0 n
  | field {k : Nat} {x y : NamedType} (path : Path u n k x) (embeds : u.Embeds x y) :
      Path u n (k + 1) y

/-- The length of the shortest path to a type. -/
structure AtDistance (u : Universe) (n : NamedType) (k : Nat) (x : NamedType) : Prop where
  path : u.Path n k x
  shortest : ∀ j, u.Path n j x → k ≤ j

section Distances
variable {u : Universe} {n x y : NamedType} {j k : Nat}

theorem AtDistance.unique (first : u.AtDistance n j x) (second : u.AtDistance n k x) : j = k :=
  Nat.le_antisymm (first.shortest k second.path) (second.shortest j first.path)

theorem exists_distance (path : u.Path n k x) : ∃ j ≤ k, u.AtDistance n j x := by
  classical
  have some : ∃ j, u.Path n j x := ⟨k,path⟩
  exact ⟨Nat.find some,Nat.find_min' some path,Nat.find_spec some,fun _ => Nat.find_min' some⟩

/-- The type before the last field of a shortest path is one field nearer. -/
theorem AtDistance.before (far : u.AtDistance n (k + 1) y) : ∃ x, u.AtDistance n k x ∧ u.Embeds x y := by
  obtain ⟨path,shortest⟩ := far
  cases path with
  | field path embeds =>
    refine ⟨_,⟨path,?_⟩,embeds⟩
    intro j other
    have whole := shortest (j + 1) (.field other embeds)
    omega

end Distances

/-- Those of the types that were not seen, each of them where it first occurs. -/
def fresh (seen : List NamedType) : List (NamedType × Bool) → List (NamedType × Bool)
  | [] => []
  | x :: rest => if x.1 ∈ seen then fresh seen rest else x :: fresh (x.1 :: seen) rest

/-- What a type offers when it is reached through a reference or not. -/
def offeredBy (u : Universe) (x : NamedType × Bool) : List Selection :=
  match u.find x.1 with
  | .ok (some d) =>
    match u.offers x.1 d x.2 with
    | .ok methods => methods
    | .error _ => []
  | _ => []

def fieldsOf (u : Universe) (x : NamedType × Bool) : List (NamedType × Bool) :=
  match u.find x.1 with
  | .ok (some d) => d.embeddedFields x.2
  | _ => []

/-- The state of the search before a round: the types that it has seen, and those that it is to visit. -/
def frontier (u : Universe) (n : NamedType) (viaReference : Bool) :
    Nat → List NamedType × List (NamedType × Bool)
  | 0 => ([],[(n,viaReference)])
  | k + 1 =>
    let (seen,level) := frontier u n viaReference k
    (((fresh seen level).map Prod.fst).reverse ++ seen,(fresh seen level).flatMap u.fieldsOf)

/-- The types that are visited in a round, and whether they are reached through a reference. -/
def round (u : Universe) (n : NamedType) (viaReference : Bool) (k : Nat) : List (NamedType × Bool) :=
  fresh (u.frontier n viaReference k).1 (u.frontier n viaReference k).2

def offeredIn (u : Universe) (n : NamedType) (viaReference : Bool) (k : Nat) : List Selection :=
  (u.round n viaReference k).flatMap u.offeredBy

section Rounds
variable {u : Universe} {n x y : NamedType} {viaReference : Bool} {k : Nat}

theorem mem_fresh {seen : List NamedType} {level : List (NamedType × Bool)} :
    x ∈ (fresh seen level).map Prod.fst ↔ x ∈ level.map Prod.fst ∧ x ∉ seen := by
  induction level generalizing seen with
  | nil => simp [fresh]
  | cons first rest ih =>
    rw [fresh]
    split
    next old =>
      rw [ih,List.map_cons,List.mem_cons]
      constructor
      · rintro ⟨later,new⟩
        exact ⟨.inr later,new⟩
      · rintro ⟨rfl | later,new⟩
        · exact absurd old new
        · exact ⟨later,new⟩
    next new =>
      rw [List.map_cons,List.mem_cons,ih,List.map_cons,List.mem_cons,List.mem_cons]
      by_cases same : x = first.1
      · simp [same,new]
      · simp [same]

theorem nodup_fresh (seen : List NamedType) (level : List (NamedType × Bool)) :
    ((fresh seen level).map Prod.fst).Nodup := by
  induction level generalizing seen with
  | nil => exact List.nodup_nil
  | cons first rest ih =>
    rw [fresh]
    split
    next => exact ih seen
    next =>
      refine List.nodup_cons.mpr ⟨?_,ih _⟩
      rw [mem_fresh]
      exact fun again => again.2 List.mem_cons_self

theorem embeds_iff : u.Embeds x y ↔ ∃ byReference, u.HasField x (y,byReference) := by
  unfold Embeds HasField
  constructor
  · rintro ⟨d,declared,concrete,member | member⟩
    · exact ⟨false,d,declared,concrete,member⟩
    · exact ⟨true,d,declared,concrete,member⟩
  · rintro ⟨byReference,d,declared,concrete,member⟩
    cases byReference with
    | false => exact ⟨d,declared,concrete,.inl member⟩
    | true => exact ⟨d,declared,concrete,.inr member⟩

/-- A field is reached through a reference if its type is, or if it is one itself. -/
theorem mem_fieldsOf_iff {flag : Bool} : (y,flag) ∈ u.fieldsOf (x,viaReference) ↔
    ∃ byReference, u.HasField x (y,byReference) ∧ flag = (viaReference || byReference) := by
  unfold fieldsOf HasField TypeDecl.embeddedFields
  split
  next d declared =>
    rw [declared]
    by_cases kind : d.kind = .interface
    · simp [kind]
    · simp only [kind,if_false,List.mem_filterMap,Except.ok.injEq,Option.some.injEq]
      constructor
      · rintro ⟨t,member,found⟩
        split at found
        next =>
          cases found
          exact ⟨false,⟨d,rfl,kind,member⟩,(Bool.or_false _).symm⟩
        next =>
          cases found
          exact ⟨true,⟨d,rfl,kind,member⟩,(Bool.or_true _).symm⟩
        next => cases found
      · rintro ⟨byReference,⟨_,rfl,_,member⟩,rfl⟩
        refine ⟨_,member,?_⟩
        cases byReference with
        | false => simp
        | true => simp
  next undeclared =>
    constructor
    · intro none
      cases none
    · rintro ⟨_,⟨d,declared,_⟩,_⟩
      exact absurd declared (undeclared d)

theorem mem_fieldsOf : y ∈ (u.fieldsOf (x,viaReference)).map Prod.fst ↔ u.Embeds x y := by
  rw [embeds_iff,List.mem_map]
  constructor
  · rintro ⟨⟨_,flag⟩,member,rfl⟩
    obtain ⟨byReference,field,_⟩ := mem_fieldsOf_iff.mp member
    exact ⟨byReference,field⟩
  · rintro ⟨byReference,field⟩
    exact ⟨_,mem_fieldsOf_iff.mpr ⟨byReference,field,rfl⟩,rfl⟩

/-- Before a round the nearer types have been seen, and those whose turn it is are to be visited. -/
structure Reached (u : Universe) (n : NamedType) (viaReference : Bool) (k : Nat) : Prop where
  seen : ∀ x, x ∈ (u.frontier n viaReference k).1 ↔ ∃ j < k, u.AtDistance n j x
  paths : ∀ x ∈ (u.frontier n viaReference k).2.map Prod.fst, u.Path n k x
  complete : ∀ x, u.AtDistance n k x → x ∈ (u.frontier n viaReference k).2.map Prod.fst

theorem Reached.mem_round (reached : u.Reached n viaReference k) :
    x ∈ (u.round n viaReference k).map Prod.fst ↔ u.AtDistance n k x := by
  rw [round,mem_fresh,reached.seen]
  constructor
  · rintro ⟨level,new⟩
    obtain ⟨j,within,distance⟩ := exists_distance (reached.paths x level)
    obtain rfl : j = k := by
      by_contra other
      exact new ⟨j,by omega,distance⟩
    exact distance
  · intro distance
    refine ⟨reached.complete x distance,?_⟩
    rintro ⟨j,nearer,other⟩
    exact absurd (other.unique distance) (by omega)

theorem frontier_succ (u : Universe) (n : NamedType) (viaReference : Bool) (k : Nat) :
    u.frontier n viaReference (k + 1) =
      (((u.round n viaReference k).map Prod.fst).reverse ++ (u.frontier n viaReference k).1,
        (u.round n viaReference k).flatMap u.fieldsOf) := rfl

theorem mem_next : y ∈ (u.frontier n viaReference (k + 1)).2.map Prod.fst ↔
    ∃ x ∈ (u.round n viaReference k).map Prod.fst, u.Embeds x y := by
  rw [frontier_succ,List.map_flatMap,List.mem_flatMap]
  constructor
  · rintro ⟨field,visited,later⟩
    exact ⟨field.1,List.mem_map_of_mem visited,mem_fieldsOf.mp later⟩
  · rintro ⟨x,among,embeds⟩
    obtain ⟨field,visited,rfl⟩ := List.mem_map.mp among
    exact ⟨field,visited,mem_fieldsOf.mpr embeds⟩

theorem Reached.next (reached : u.Reached n viaReference k) : u.Reached n viaReference (k + 1) where
  seen := by
    intro x
    rw [frontier_succ,List.mem_append,List.mem_reverse,reached.mem_round,reached.seen]
    constructor
    · rintro (distance | ⟨j,nearer,distance⟩)
      · exact ⟨k,by omega,distance⟩
      · exact ⟨j,by omega,distance⟩
    · rintro ⟨j,within,distance⟩
      by_cases last : j = k
      · exact .inl (last ▸ distance)
      · exact .inr ⟨j,by omega,distance⟩
  paths := by
    intro y later
    obtain ⟨x,visited,embeds⟩ := mem_next.mp later
    exact .field (reached.mem_round.mp visited).path embeds
  complete := by
    intro y far
    obtain ⟨x,distance,embeds⟩ := far.before
    exact mem_next.mpr ⟨x,reached.mem_round.mpr distance,embeds⟩

theorem reached (u : Universe) (n : NamedType) (viaReference : Bool) (k : Nat) :
    u.Reached n viaReference k := by
  induction k with
  | zero =>
    constructor
    · intro x
      simp [frontier]
    · intro x level
      obtain rfl : x = n := by simpa [frontier] using level
      exact .self
    · intro x distance
      cases distance.path with
      | self => simp [frontier]
  | succ k ih => exact ih.next

/-- The types of a round are those at its distance. -/
theorem mem_round : x ∈ (u.round n viaReference k).map Prod.fst ↔ u.AtDistance n k x :=
  (u.reached n viaReference k).mem_round

/-- The type as the search that starts from a reference reaches it. -/
def marked (x : NamedType × Bool) : NamedType × Bool := (x.1,true)

theorem fresh_marked (seen : List NamedType) (level : List (NamedType × Bool)) :
    fresh seen (level.map marked) = (fresh seen level).map marked := by
  induction level generalizing seen with
  | nil => rfl
  | cons first rest ih =>
    rw [List.map_cons,fresh,fresh,ih,ih]
    by_cases known : first.1 ∈ seen
    · rw [if_pos known]
      exact if_pos known
    · rw [if_neg known]
      exact if_neg known

theorem fieldsOf_marked (u : Universe) (x : NamedType × Bool) :
    u.fieldsOf (marked x) = (u.fieldsOf x).map marked := by
  unfold fieldsOf TypeDecl.embeddedFields marked
  simp only
  split
  next =>
    split
    · rfl
    · rw [List.map_filterMap]
      congr
      funext t
      split <;> rfl
  next => rfl

/-- Both searches come upon the same types in the same rounds and orders. -/
theorem frontier_marked (u : Universe) (n : NamedType) (viaReference : Bool) (k : Nat) :
    u.frontier n true k =
      ((u.frontier n viaReference k).1,(u.frontier n viaReference k).2.map marked) := by
  induction k with
  | zero => rfl
  | succ k ih =>
    rw [frontier_succ,frontier_succ,round,round,ih]
    simp only [fresh_marked,List.map_map,List.flatMap_map,List.map_flatMap,fieldsOf_marked]
    rfl

theorem round_marked (u : Universe) (n : NamedType) (viaReference : Bool) (k : Nat) :
    u.round n true k = (u.round n viaReference k).map marked := by
  rw [round,frontier_marked u n viaReference,fresh_marked]
  rfl

theorem nodup_round (u : Universe) (n : NamedType) (viaReference : Bool) (k : Nat) :
    ((u.round n viaReference k).map Prod.fst).Nodup := nodup_fresh _ _

end Rounds

section Selection
variable {u : Universe} {n : NamedType} {viaReference : Bool}

theorem visit_eq {types : List (NamedType × Bool)} {s s' : Level} (ok : u.visit types s = .ok s') :
    s' = ⟨((fresh s.seen types).map Prod.fst).reverse ++ s.seen,
      s.offered ++ (fresh s.seen types).flatMap u.offeredBy,
      s.next ++ (fresh s.seen types).flatMap u.fieldsOf⟩ := by
  fun_induction visit u types s with
  | case1 s =>
    cases ok
    simp [fresh]
  | case2 n viaReference rest s known ih =>
    rw [ih ok,fresh,if_pos known]
  | case3 => cases ok
  | case4 n viaReference rest s new outside ih =>
    have none : u.offeredBy (n,viaReference) = [] ∧ u.fieldsOf (n,viaReference) = [] := by
      simp [offeredBy,fieldsOf,outside]
    rw [ih ok,fresh,if_neg new]
    simp [none]
  | case5 => cases ok
  | case6 n viaReference rest s new d declared methods offered ih =>
    have own : u.offeredBy (n,viaReference) = methods ∧
        u.fieldsOf (n,viaReference) = d.embeddedFields viaReference := by
      simp [offeredBy,fieldsOf,declared,offered]
    rw [ih ok,fresh,if_neg new]
    simp [own]

/-- A method is selected in a round: of its name it is the only one there, and none was offered before. -/
structure SelectedIn (u : Universe) (n : NamedType) (viaReference : Bool) (k : Nat) (s : Selection) :
    Prop where
  offered : s ∈ u.offeredIn n viaReference k
  nearest : ∀ j < k, s.name ∉ names (u.offeredIn n viaReference j)
  once : (u.offeredIn n viaReference k).countP (·.name == s.name) = 1

theorem mem_selected_iff {decided : List String} {k : Nat} {s : Selection}
    (known : ∀ name, name ∈ decided ↔ ∃ j < k, name ∈ names (u.offeredIn n viaReference j)) :
    s ∈ selected decided (u.offeredIn n viaReference k) ↔ u.SelectedIn n viaReference k s := by
  unfold selected
  rw [List.mem_filter,Bool.and_eq_true,Bool.not_eq_true',List.contains_eq_mem,decide_eq_false_iff_not,
    known,beq_iff_eq]
  constructor
  · rintro ⟨offered,undecided,once⟩
    exact ⟨offered,fun j nearer before => undecided ⟨j,nearer,before⟩,once⟩
  · rintro ⟨offered,nearest,once⟩
    exact ⟨offered,fun ⟨j,nearer,before⟩ => nearest j nearer before,once⟩

theorem round_of_empty {j k : Nat} (empty : (u.frontier n viaReference k).2 = []) (later : k ≤ j) :
    u.round n viaReference j = [] := by
  have ends : (u.frontier n viaReference j).2 = [] := by
    induction j, later using Nat.le_induction with
    | base => exact empty
    | succ j _ ih =>
      rw [frontier_succ,round,ih]
      rfl
  rw [round,ends]
  rfl

theorem mem_promote_iff {found methods : List Selection} {decided : List String} {seen : List NamedType}
    {level : List (NamedType × Bool)} (ok : u.promote found decided seen level = .ok methods) {k : Nat}
    (here : u.frontier n viaReference k = (seen,level))
    (known : ∀ name, name ∈ decided ↔ ∃ j < k, name ∈ names (u.offeredIn n viaReference j))
    (s : Selection) : s ∈ methods ↔ s ∈ found ∨ ∃ j ≥ k, u.SelectedIn n viaReference j s := by
  -- The induction is on the rounds; those before the present one have decided the names that they offered.
  fun_induction promote u found decided seen level generalizing k with
  | case1 found decided seen =>
    cases ok
    refine (or_iff_left ?_).symm
    rintro ⟨j,later,offered,_,_⟩
    have none : u.round n viaReference j = [] := round_of_empty (congrArg Prod.snd here) later
    rw [offeredIn,none] at offered
    cases offered
  | case2 => cases ok
  | case3 found decided seen first rest l visited ih =>
    have round : fresh seen (first :: rest) = u.round n viaReference k := by rw [Universe.round,here]
    have level := visit_eq visited
    rw [round] at level
    have offered : l.offered = u.offeredIn n viaReference k := by
      rw [level]
      exact List.nil_append _
    have next : u.frontier n viaReference (k + 1) = (l.seen,l.next) := by
      rw [frontier_succ,level,here]
      rfl
    rw [ih ok next]
    · rw [List.mem_append,offered,mem_selected_iff known,or_assoc]
      refine or_congr_right ⟨?_,?_⟩
      · rintro (now | ⟨j,later,selected⟩)
        · exact ⟨k,Nat.le_refl k,now⟩
        · exact ⟨j,by omega,selected⟩
      · rintro ⟨j,later,selected⟩
        by_cases now : j = k
        · exact .inl (now ▸ selected)
        · exact .inr ⟨j,by omega,selected⟩
    · intro name
      rw [List.mem_append,known,offered]
      constructor
      · rintro (⟨j,nearer,before⟩ | now)
        · exact ⟨j,by omega,before⟩
        · exact ⟨k,by omega,now⟩
      · rintro ⟨j,within,among⟩
        by_cases now : j = k
        · exact .inr (now ▸ among)
        · exact .inl ⟨j,by omega,among⟩

/-- The methods of a type that is no interface are those that are selected in some round. -/
theorem mem_promotedMethods_iff {methods : List Selection}
    (ok : u.promotedMethods n viaReference = .ok methods) (s : Selection) :
    s ∈ methods ↔ ∃ k, u.SelectedIn n viaReference k s := by
  obtain ⟨found,promoted,rfl⟩ := promotedMethods_eq_ok.mp ok
  rw [Text.mem_sortBy,mem_promote_iff (k := 0) promoted rfl (by simp)]
  simp

end Selection
end ProxyGen.Universe
