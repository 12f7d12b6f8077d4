import ProxyGen.Universe.Underlying
import ProxyGen.Universe.MethodSet

/-!
All type expressions that a walk through a universe can come upon: those below the underlying types and
the results of methods that are declared there. Method sets and underlying types stay among them.
-/
namespace ProxyGen.Universe

/-- Everything below the underlying type and the method results of a declaration. -/
def declExprs (d : TypeDecl) : List TypeExpr :=
  d.underlying.subexprs ++
    d.methods.flatMap fun m => m.signature.results.flatMap fun r => r.type.subexprs

/-- Everything below the underlying types and the method results of a universe. -/
def exprs (u : Universe) : List TypeExpr := u.declared.flatMap fun entry => declExprs entry.2

section Closed
variable {u : Universe} {n : NamedType} {d : TypeDecl} {t x : TypeExpr}

theorem mem_exprs_of_find (declared : u.find n = .ok (some d)) (member : t ∈ declExprs d) : t ∈ u.exprs :=
  List.mem_flatMap.mpr ⟨(n,d),find_eq_some declared,member⟩

theorem subexprs_exprs (member : t ∈ u.exprs) (below : x ∈ t.subexprs) : x ∈ u.exprs := by
  obtain ⟨entry,declared,member⟩ := List.mem_flatMap.mp member
  refine List.mem_flatMap.mpr ⟨entry,declared,?_⟩
  simp only [declExprs,List.mem_append,List.mem_flatMap] at member ⊢
  rcases member with member | ⟨m,listed,r,returned,member⟩
  · exact .inl (TypeExpr.subexprs_trans member below)
  · exact .inr ⟨m,listed,r,returned,TypeExpr.subexprs_trans member below⟩

theorem underlying_mem_exprs (known : u.underlying n = .ok t) : t ∈ u.exprs := by
  obtain ⟨m,d,declared,rfl⟩ := underlying_eq_ok known
  exact mem_exprs_of_find declared (List.mem_append_left _ (TypeExpr.mem_subexprs_self _))

end Closed

/-- The signature was declared for some type of the universe. -/
def Declares (u : Universe) (s : Signature) : Prop :=
  ∃ n d m, u.find n = .ok (some d) ∧ m ∈ d.methods ∧ m.signature = s

theorem result_mem_exprs {u : Universe} {s : Signature} {r : Param} (declared : u.Declares s)
    (returned : r ∈ s.results) : r.type ∈ u.exprs := by
  obtain ⟨n,d,m,found,listed,rfl⟩ := declared
  refine mem_exprs_of_find found (List.mem_append_right _ ?_)
  simp only [List.mem_flatMap]
  exact ⟨m,listed,r,returned,TypeExpr.mem_subexprs_self _⟩

theorem foldl_addNew_mem {methods : List MethodDecl} {found : List Selection} {s : Selection}
    (member : s ∈ methods.foldl addNew found) : s ∈ found ∨ ∃ m ∈ methods, s = m.select false := by
  induction methods generalizing found with
  | nil => exact .inl member
  | cons m rest ih =>
    rcases ih member with early | ⟨m',later,same⟩
    · unfold addNew at early
      split at early
      · exact .inl early
      · rcases List.mem_append.mp early with early | new
        · exact .inl early
        · exact .inr ⟨m,List.mem_cons_self,List.mem_singleton.mp new⟩
    · exact .inr ⟨m',List.mem_cons_of_mem _ later,same⟩

section Declared
variable {u : Universe} {n : NamedType} {d : TypeDecl} {methods found : List Selection} {viaReference : Bool}

theorem flatten_declares {seen pending : List NamedType} (flat : u.flatten found seen pending = .ok methods)
    (before : ∀ s ∈ found, u.Declares s.signature) : ∀ s ∈ methods, u.Declares s.signature := by
  fun_induction flatten u found seen pending with
  | case1 =>
    cases flat
    exact before
  | case2 _ _ _ _ _ ih => exact ih flat before
  | case3 => cases flat
  | case4 _ _ _ _ _ _ ih => exact ih flat before
  | case5 _ _ n _ _ d declared ih =>
    refine ih flat fun s member => ?_
    rcases foldl_addNew_mem member with early | ⟨m,listed,rfl⟩
    · exact before s early
    · exact ⟨n,d,m,declared,listed,rfl⟩

theorem interfaceMethods_declares (known : u.interfaceMethods n = .ok methods) :
    ∀ s ∈ methods, u.Declares s.signature := by
  obtain ⟨found,flat,rfl⟩ := interfaceMethods_eq_ok.mp known
  intro s member
  exact flatten_declares flat (fun _ none => absurd none List.not_mem_nil) s (Text.mem_sortBy.mp member)

theorem offers_declares (declared : u.find n = .ok (some d)) (known : u.offers n d viaReference = .ok methods) :
    ∀ s ∈ methods, u.Declares s.signature := by
  unfold offers at known
  split at known
  · split at known
    next => cases known
    next found inherited =>
      cases known
      intro s member
      obtain ⟨m,listed,rfl⟩ := List.mem_map.mp member
      exact interfaceMethods_declares inherited m listed
  · cases known
    intro s member
    obtain ⟨m,listed,rfl⟩ := List.mem_map.mp member
    exact ⟨n,d,m,declared,(List.mem_filter.mp listed).1,rfl⟩

theorem visit_declares {types : List (NamedType × Bool)} {l l' : Level} (visited : u.visit types l = .ok l')
    (before : ∀ s ∈ l.offered, u.Declares s.signature) : ∀ s ∈ l'.offered, u.Declares s.signature := by
  fun_induction visit u types l with
  | case1 =>
    cases visited
    exact before
  | case2 _ _ _ _ _ ih => exact ih visited before
  | case3 => cases visited
  | case4 _ _ _ _ _ _ ih => exact ih visited before
  | case5 => cases visited
  | case6 _ _ _ _ _ _ declared _ offered ih =>
    refine ih visited fun s member => ?_
    rcases List.mem_append.mp member with early | new
    · exact before s early
    · exact offers_declares declared offered s new

theorem promote_declares {decided : List String} {seen : List NamedType} {level : List (NamedType × Bool)}
    (promoted : u.promote found decided seen level = .ok methods) (before : ∀ s ∈ found, u.Declares s.signature) :
    ∀ s ∈ methods, u.Declares s.signature := by
  fun_induction promote u found decided seen level with
  | case1 =>
    cases promoted
    exact before
  | case2 => cases promoted
  | case3 _ _ _ _ _ l visited ih =>
    refine ih promoted fun s member => ?_
    rcases List.mem_append.mp member with early | new
    · exact before s early
    · have offered := (List.mem_filter.mp new).1
      exact visit_declares visited (fun _ none => absurd none List.not_mem_nil) s offered

theorem promotedMethods_declares (known : u.promotedMethods n viaReference = .ok methods) :
    ∀ s ∈ methods, u.Declares s.signature := by
  obtain ⟨found,promoted,rfl⟩ := promotedMethods_eq_ok.mp known
  intro s member
  exact promote_declares promoted (fun _ none => absurd none List.not_mem_nil) s (Text.mem_sortBy.mp member)

theorem namedMethods_declares (known : u.namedMethods n viaReference = .ok methods) :
    ∀ s ∈ methods, u.Declares s.signature := by
  unfold namedMethods at known
  split at known
  next => cases known
  next =>
    cases known
    exact fun _ none => absurd none List.not_mem_nil
  next =>
    split at known
    · split at known
      · cases known
        exact fun _ none => absurd none List.not_mem_nil
      · exact interfaceMethods_declares known
    · exact promotedMethods_declares known

theorem methodSet_declares {t : TypeExpr} (known : u.methodSet t = .ok methods) :
    ∀ s ∈ methods, u.Declares s.signature := by
  unfold methodSet at known
  split at known
  · exact namedMethods_declares known
  · exact namedMethods_declares known
  · cases known
    exact fun _ none => absurd none List.not_mem_nil

end Declared
end ProxyGen.Universe
