import ProxyGen.Universe.Unseen

/-!
Method sets. Only a declared type and the reference to a declared type that is no interface have
methods. An interface has the methods of all interfaces it embeds, at any distance. Any other type is
offered the methods of its embedded fields, nearer ones before farther ones: a name that is offered
once at the least distance is selected, and one that is offered twice there is lost.
-/
namespace ProxyGen

/-- The method as selected, directly or through a reference. -/
def MethodDecl.select (m : MethodDecl) (indirect : Bool) : Selection :=
  ⟨m.name,m.receiverName,m.signature,indirect⟩

def TypeDecl.embeddedNames (d : TypeDecl) : List NamedType := d.embeds.filterMap TypeExpr.asNamed?

/-- The types that the fields of a type embed, and whether they are reached through a reference once the
type itself is reached that way or not. Interfaces are not expanded. -/
def TypeDecl.embeddedFields (d : TypeDecl) (viaReference : Bool) : List (NamedType × Bool) :=
  if d.kind = .interface then []
  else d.embeds.filterMap fun
    | .named n => some (n,viaReference)
    | .pointer (.named n) => some (n,true)
    | _ => none

namespace Universe

/-- Adds a method unless there is one of its name. -/
def addNew (found : List Selection) (m : MethodDecl) : List Selection :=
  if found.any (·.name == m.name) then found else found ++ [m.select false]

/-- Adds the methods of the interfaces in `pending` and of those they embed, depth first and the last
embedded one first. -/
def flatten (u : Universe) (found : List Selection) (seen pending : List NamedType) :
    Except Error (List Selection) :=
  match pending with
  | [] => .ok found
  | n :: rest =>
    if _ : n ∈ seen then flatten u found seen rest
    else match _ : u.find n with
      | .error e => .error e
      | .ok none => flatten u found (n :: seen) rest
      | .ok (some d) =>
        flatten u (d.methods.foldl addNew found) (n :: seen) (d.embeddedNames.reverse ++ rest)
termination_by (u.unseen seen,pending.length)
decreasing_by
  · exact .right _ (by simp)
  · exact .right' _ (unseen_cons_le u n seen) (by simp)
  · exact .left _ _ (unseen_cons_lt ‹_› ‹_›)

def interfaceMethods (u : Universe) (n : NamedType) : Except Error (List Selection) :=
  match u.flatten [] [] [n] with
  | .error e => .error e
  | .ok methods => .ok (Text.sortBy (·.name) methods)

/-- What a declared type itself offers when it is reached through a reference or not. -/
def offers (u : Universe) (n : NamedType) (d : TypeDecl) (viaReference : Bool) :
    Except Error (List Selection) :=
  if d.kind = .interface then
    match u.interfaceMethods n with
    | .error e => .error e
    | .ok methods => .ok (methods.map fun m => { m with indirect := viaReference })
  else
    .ok ((d.methods.filter fun m => viaReference || !m.pointerReceiver).map (·.select viaReference))

/-- One distance of the search: the types seen so far, what those at this distance offer, and the types
at the next. -/
structure Level where
  seen : List NamedType
  offered : List Selection
  next : List (NamedType × Bool)

/-- Visits the types at one distance. Types that were seen, and types of packages outside the universe,
offer nothing. -/
def visit (u : Universe) : List (NamedType × Bool) → Level → Except Error Level
  | [], s => .ok s
  | (n,viaReference) :: rest, s =>
    if n ∈ s.seen then u.visit rest s
    else match u.find n with
      | .error e => .error e
      | .ok none => u.visit rest { s with seen := n :: s.seen }
      | .ok (some d) =>
        match u.offers n d viaReference with
        | .error e => .error e
        | .ok methods =>
          u.visit rest ⟨n :: s.seen,s.offered ++ methods,s.next ++ d.embeddedFields viaReference⟩

theorem unseen_visit {u : Universe} {types : List (NamedType × Bool)} {s s' : Level}
    (visited : u.visit types s = .ok s') :
    u.unseen s'.seen ≤ u.unseen s.seen ∧ (u.unseen s'.seen < u.unseen s.seen ∨ s'.next = s.next) := by
  fun_induction visit u types s with
  | case1 =>
    cases visited
    exact ⟨Nat.le_refl _,.inr rfl⟩
  | case2 _ _ _ _ _ ih => exact ih visited
  | case3 => cases visited
  | case4 n _ _ s _ _ ih =>
    have marked := unseen_cons_le u n s.seen
    obtain ⟨fewer,found⟩ := ih visited
    exact ⟨Nat.le_trans fewer marked,found.imp_left fun fewer => Nat.lt_of_lt_of_le fewer marked⟩
  | case5 => cases visited
  | case6 _ _ _ _ new _ declared _ _ ih =>
    have marked := unseen_cons_lt declared new
    obtain ⟨fewer,_⟩ := ih visited
    have fell := Nat.lt_of_le_of_lt fewer marked
    exact ⟨Nat.le_of_lt fell,.inl fell⟩

/-- The names that are offered once and were not decided at a smaller distance. -/
def selected (decided : List String) (offered : List Selection) : List Selection :=
  offered.filter fun m => !decided.contains m.name && offered.countP (·.name == m.name) == 1

/-- Adds the methods selected from the types of `level` and from those they embed, distance by distance.
Once a name has been offered it is decided. -/
def promote (u : Universe) (found : List Selection) (decided : List String) (seen : List NamedType)
    (level : List (NamedType × Bool)) : Except Error (List Selection) :=
  match level with
  | [] => .ok found
  | n :: rest =>
    match _ : u.visit (n :: rest) ⟨seen,[],[]⟩ with
    | .error e => .error e
    | .ok s =>
      promote u (found ++ selected decided s.offered) (decided ++ s.offered.map (·.name)) s.seen s.next
termination_by (u.unseen seen,level.length)
decreasing_by
  obtain ⟨fewer,fell | none⟩ := unseen_visit ‹_›
  · exact .left _ _ fell
  · refine .right' _ fewer ?_
    rw [none]
    exact Nat.succ_pos _

/-- The method set of a declared type that is no interface, or of the reference to it. -/
def promotedMethods (u : Universe) (n : NamedType) (viaReference : Bool) :
    Except Error (List Selection) :=
  match u.promote [] [] [] [(n,viaReference)] with
  | .error e => .error e
  | .ok methods => .ok (Text.sortBy (·.name) methods)

def namedMethods (u : Universe) (n : NamedType) (viaReference : Bool) :
    Except Error (List Selection) :=
  match u.find n with
  | .error e => .error e
  | .ok none => .ok []
  | .ok (some d) =>
    if d.kind = .interface then
      if viaReference then .ok [] else u.interfaceMethods n
    else u.promotedMethods n viaReference

/-- The method set of a type, in the order of names. -/
def methodSet (u : Universe) : TypeExpr → Except Error (List Selection)
  | .named n => u.namedMethods n false
  | .pointer (.named n) => u.namedMethods n true
  | _ => .ok []

section Parts
variable {u : Universe} {n : NamedType} {d : TypeDecl} {methods : List Selection}

theorem interfaceMethods_eq_ok : u.interfaceMethods n = .ok methods ↔
    ∃ found, u.flatten [] [] [n] = .ok found ∧ Text.sortBy (·.name) found = methods := by
  unfold interfaceMethods
  cases u.flatten [] [] [n] <;> simp

theorem promotedMethods_eq_ok {viaReference : Bool} : u.promotedMethods n viaReference = .ok methods ↔
    ∃ found, u.promote [] [] [] [(n,viaReference)] = .ok found ∧
      Text.sortBy (·.name) found = methods := by
  unfold promotedMethods
  cases u.promote [] [] [] [(n,viaReference)] <;> simp

theorem methodSet_of_interface (declared : u.find n = .ok (some d)) (interface : d.kind = .interface) :
    u.methodSet (.named n) = u.interfaceMethods n := by
  simp [methodSet,namedMethods,declared,interface]

theorem methodSet_of_concrete (declared : u.find n = .ok (some d)) (concrete : d.kind ≠ .interface) :
    u.methodSet (.named n) = u.promotedMethods n false ∧
      u.methodSet (.pointer (.named n)) = u.promotedMethods n true := by
  simp [methodSet,namedMethods,declared,concrete]

end Parts
end Universe
end ProxyGen
