import Mathlib.Logic.Relation
import ProxyGen.Universe.MethodSet
import ProxyGen.Universe.Underlying

/-! Types that references and names lead away from. A reference is known by the type it refers to and a name by
its declaration, so the shape of a type can be told where no cycle is made of these alone; then a question
about a type fails only over something that is not declared. -/
namespace ProxyGen

/-- A name is not declared, or its package is not known. -/
def Error.Undeclared : Error → Prop
  | .unknownPackage _ | .unknownType _ => True
  | _ => False

theorem TypeExpr.root_eq_self {t : TypeExpr} (bare : t.references = 0) : t.root = t := by
  cases t with
  | pointer t => cases bare
  | _ => rfl

namespace Universe

/-- One type has to be known for the other to be told. -/
inductive Refers (u : Universe) : TypeExpr → TypeExpr → Prop
  | pointer (t) : Refers u (.pointer t) t
  | named {n d} (declared : u.declaration n = .ok d) : Refers u (.named n) d.underlying

def Grounded (u : Universe) : Prop := ∀ t, ¬ Relation.TransGen u.Refers t t

section Grounded
variable {u : Universe}

/-- Where every name stands for something made of other types, each cycle goes through that. -/
theorem grounded_of_composite
    (composite : ∀ entry ∈ u.declared, entry.2.underlying.references = 0 ∧ entry.2.underlying.asNamed? = none) :
    u.Grounded := by
  let rank (t : TypeExpr) : Nat := t.references + t.root.asNamed?.toList.length
  have falls {t t' : TypeExpr} (refers : u.Refers t t') : rank t' < rank t := by
    cases refers with
    | pointer t =>
      simp only [rank,TypeExpr.references,TypeExpr.root]
      omega
    | @named n d declared =>
      obtain ⟨bare,nameless⟩ := composite (n,d) (find_eq_some (declaration_eq_ok.mp declared))
      have own : d.underlying.root = d.underlying := TypeExpr.root_eq_self bare
      have low : rank d.underlying = 0 := by simp only [rank,own,bare,nameless,Option.toList_none,List.length_nil]
      have high : rank (.named n) = 1 := rfl
      omega
  have lower {t t' : TypeExpr} (refers : Relation.TransGen u.Refers t t') : rank t' < rank t := by
    induction refers with
    | single first => exact falls first
    | tail _ last ih => exact Nat.lt_trans (falls last) ih
  exact fun t cycle => Nat.lt_irrefl _ (lower cycle)

/-- The names that lead to `t` do not come up again on the way from it. -/
theorem acc_refers_from (grounded : u.Grounded) (seen : List NamedType) (t : TypeExpr)
    (leads : ∀ n ∈ seen, Relation.TransGen u.Refers (.named n) t) : Acc (Function.swap u.Refers) t := by
  constructor
  intro next refers
  match t, refers with
  | .pointer next, .pointer _ =>
    exact acc_refers_from grounded seen next fun n member => (leads n member).tail (.pointer next)
  | .named n, @Refers.named _ _ d declared =>
    have fresh : n ∉ seen := fun member => grounded _ (leads n member)
    refine acc_refers_from grounded (n :: seen) d.underlying fun m member => ?_
    rcases List.mem_cons.mp member with rfl | old
    · exact .single (.named declared)
    · exact (leads m old).tail (.named declared)
termination_by (u.unseen seen,t.size)
decreasing_by
  · exact .right _ next.size_pointer
  · exact .left _ _ (unseen_cons_lt (declaration_eq_ok.mp declared) fresh)

theorem acc_refers (grounded : u.Grounded) (t : TypeExpr) : Acc (Function.swap u.Refers) t :=
  acc_refers_from grounded [] t (by simp)

theorem find_undeclared {n : NamedType} {e : Error} (failed : u.find n = .error e) : e.Undeclared := by
  unfold find at failed
  split at failed
  next => cases failed
  next =>
    split at failed
    next =>
      cases failed
      trivial
    next => cases failed

theorem declaration_undeclared {n : NamedType} {e : Error} (failed : u.declaration n = .error e) :
    e.Undeclared := by
  unfold declaration at failed
  split at failed
  next _ lookup =>
    cases failed
    exact find_undeclared lookup
  next =>
    cases failed
    trivial
  next => cases failed

theorem refers_of_underlyingFrom {origin n : NamedType} {seen : List NamedType} {t : TypeExpr}
    (ok : u.underlyingFrom origin n seen = .ok t) : Relation.TransGen u.Refers (.named n) t := by
  fun_induction underlyingFrom u origin n seen with
  | case1 => cases ok
  | case2 => cases ok
  | case3 n _ _ d declared next is_name ih =>
    have first := Refers.named declared
    rw [is_name] at first
    exact .head first (ih ok)
  | case4 n _ _ d declared _ =>
    cases ok
    exact .single (.named declared)

theorem underlyingFrom_undeclared (grounded : u.Grounded) {origin n : NamedType} {seen : List NamedType}
    {e : Error} (leads : ∀ m ∈ seen, Relation.TransGen u.Refers (.named m) (.named n))
    (failed : u.underlyingFrom origin n seen = .error e) : e.Undeclared := by
  fun_induction underlyingFrom u origin n seen with
  | case1 n seen again => exact absurd (leads n again) (grounded _)
  | case2 _ _ _ _ missing =>
    cases failed
    exact declaration_undeclared missing
  | case3 n _ _ d declared next is_name ih =>
    have first := Refers.named declared
    rw [is_name] at first
    refine ih (fun m member => ?_) failed
    rcases List.mem_cons.mp member with rfl | old
    · exact .single first
    · exact (leads m old).tail first
  | case4 => cases failed

theorem underlying_undeclared (grounded : u.Grounded) {n : NamedType} {e : Error}
    (failed : u.underlying n = .error e) : e.Undeclared :=
  underlyingFrom_undeclared grounded (by simp) failed

theorem shapeFrom_undeclared (grounded : u.Grounded) {seen : List NamedType} {t : TypeExpr} {e : Error}
    (leads : ∀ n ∈ seen, Relation.TransGen u.Refers (.named n) t)
    (failed : u.shapeFrom seen t = .error e) : e.Undeclared := by
  fun_induction shapeFrom u seen t with
  | case1 _ n again => exact absurd (leads n again) (grounded _)
  | case2 _ _ _ _ missing =>
    cases failed
    exact underlying_undeclared grounded missing
  | case3 _ n _ t stands ih =>
    have first := refers_of_underlyingFrom stands
    refine ih (fun m member => ?_) failed
    rcases List.mem_cons.mp member with rfl | old
    · exact first
    · exact (leads m old).trans first
  | case4 _ t _ inner ih =>
    cases failed
    exact ih (fun n member => (leads n member).tail (.pointer t)) inner
  | case5 => cases failed
  | case6 => cases failed
  | case7 => cases failed
  | case8 => cases failed

theorem shape_undeclared (grounded : u.Grounded) {t : TypeExpr} {e : Error}
    (failed : u.shape t = .error e) : e.Undeclared :=
  shapeFrom_undeclared grounded (by simp) failed

end Grounded

section Methods
variable {u : Universe} {e : Error}

theorem flatten_undeclared {found : List Selection} {seen pending : List NamedType}
    (failed : u.flatten found seen pending = .error e) : e.Undeclared := by
  fun_induction flatten u found seen pending with
  | case1 => cases failed
  | case2 _ _ _ _ _ ih => exact ih failed
  | case3 _ _ _ _ _ _ missing =>
    cases failed
    exact find_undeclared missing
  | case4 _ _ _ _ _ _ ih => exact ih failed
  | case5 _ _ _ _ _ _ _ ih => exact ih failed

theorem interfaceMethods_undeclared {n : NamedType} (failed : u.interfaceMethods n = .error e) :
    e.Undeclared := by
  unfold interfaceMethods at failed
  split at failed
  next _ flat =>
    cases failed
    exact flatten_undeclared flat
  next => cases failed

theorem offers_undeclared {n : NamedType} {d : TypeDecl} {viaReference : Bool}
    (failed : u.offers n d viaReference = .error e) : e.Undeclared := by
  unfold offers at failed
  split at failed
  · split at failed
    next _ flat =>
      cases failed
      exact interfaceMethods_undeclared flat
    next => cases failed
  · cases failed

theorem visit_undeclared {types : List (NamedType × Bool)} {l : Level}
    (failed : u.visit types l = .error e) : e.Undeclared := by
  fun_induction visit u types l with
  | case1 => cases failed
  | case2 _ _ _ _ _ ih => exact ih failed
  | case3 _ _ _ _ _ _ missing =>
    cases failed
    exact find_undeclared missing
  | case4 _ _ _ _ _ _ ih => exact ih failed
  | case5 _ _ _ _ _ _ _ _ refused =>
    cases failed
    exact offers_undeclared refused
  | case6 _ _ _ _ _ _ _ _ _ ih => exact ih failed

theorem promote_undeclared {found : List Selection} {decided : List String} {seen : List NamedType}
    {level : List (NamedType × Bool)} (failed : u.promote found decided seen level = .error e) :
    e.Undeclared := by
  fun_induction promote u found decided seen level with
  | case1 => cases failed
  | case2 _ _ _ _ _ _ refused =>
    cases failed
    exact visit_undeclared refused
  | case3 _ _ _ _ _ _ _ ih => exact ih failed

theorem namedMethods_undeclared {n : NamedType} {viaReference : Bool}
    (failed : u.namedMethods n viaReference = .error e) : e.Undeclared := by
  unfold namedMethods at failed
  split at failed
  next _ missing =>
    cases failed
    exact find_undeclared missing
  next => cases failed
  next d _ =>
    split at failed
    · split at failed
      · cases failed
      · exact interfaceMethods_undeclared failed
    · unfold promotedMethods at failed
      split at failed
      next _ refused =>
        cases failed
        exact promote_undeclared refused
      next => cases failed

theorem methodSet_undeclared {t : TypeExpr} (failed : u.methodSet t = .error e) : e.Undeclared := by
  unfold methodSet at failed
  split at failed
  · exact namedMethods_undeclared failed
  · exact namedMethods_undeclared failed
  · cases failed

end Methods
end Universe
end ProxyGen
