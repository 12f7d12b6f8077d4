import ProxyGen.Universe.Unseen

/-!
What declared types stand for. The underlying type of a name is found by following declarations until
one gives a type that is not a name; the shape of a type looks through names and counts references.
-/
namespace ProxyGen

/-- The kind of a type and the number of references over it, names looked through. -/
structure Shape where
  kind : Kind
  depth : Nat
  deriving DecidableEq

namespace Universe

/-- Follows the declarations from `n`; the names of `seen`, which lead here from `origin`, may not occur
again. -/
def underlyingFrom (u : Universe) (origin n : NamedType) (seen : List NamedType) :
    Except Error TypeExpr :=
  if _ : n ∈ seen then .error (.cyclicUnderlying origin)
  else match _ : u.declaration n with
    | .error e => .error e
    | .ok d =>
      match d.underlying with
      | .named next => underlyingFrom u origin next (n :: seen)
      | t => .ok t
termination_by u.unseen seen
decreasing_by exact unseen_cons_lt (declaration_eq_ok.mp ‹_›) ‹_›

/-- The type that a name stands for, which is no name itself. -/
def underlying (u : Universe) (n : NamedType) : Except Error TypeExpr := u.underlyingFrom n n []

section Declared
variable {u : Universe} {origin n : NamedType} {seen : List NamedType} {t : TypeExpr}

theorem underlyingFrom_eq_ok (known : u.underlyingFrom origin n seen = .ok t) :
    ∃ m d, u.find m = .ok (some d) ∧ d.underlying = t := by
  fun_induction underlyingFrom u origin n seen with
  | case1 => cases known
  | case2 => cases known
  | case3 _ _ _ _ _ _ _ ih => exact ih known
  | case4 n _ _ d declared =>
    cases known
    exact ⟨n,d,declaration_eq_ok.mp declared,rfl⟩

theorem underlying_eq_ok (known : u.underlying n = .ok t) : ∃ m d, u.find m = .ok (some d) ∧ d.underlying = t :=
  underlyingFrom_eq_ok known

theorem declared_of_underlying (known : u.underlying n = .ok t) : ∃ d, u.find n = .ok (some d) := by
  unfold underlying underlyingFrom at known
  rw [dif_neg List.not_mem_nil] at known
  split at known
  next => cases known
  next d declared => exact ⟨d,declaration_eq_ok.mp declared⟩

end Declared

/-- The shape of a type that was reached through the names of `seen`. Where a name comes up again the generator
would look through the names without end; the error stands for that, so that the search has an answer. -/
def shapeFrom (u : Universe) (seen : List NamedType) (t : TypeExpr) : Except Error Shape :=
  match t with
  | .named n =>
    if _ : n ∈ seen then .error (.endlessReference n)
    else match _ : u.underlying n with
      | .error e => .error e
      | .ok t => shapeFrom u (n :: seen) t
  | .pointer t =>
    match shapeFrom u seen t with
    | .error e => .error e
    | .ok s => .ok ⟨s.kind,s.depth + 1⟩
  | .struct => .ok ⟨.struct,0⟩
  | .interface => .ok ⟨.interface,0⟩
  | _ => .ok ⟨.other,0⟩
termination_by (u.unseen seen,t.size)
decreasing_by
  · obtain ⟨d,declared⟩ := declared_of_underlying ‹u.underlying n = _›
    exact .left _ _ (unseen_cons_lt declared ‹_›)
  · exact .right _ t.size_pointer

def shape (u : Universe) (t : TypeExpr) : Except Error Shape := u.shapeFrom [] t

end Universe
end ProxyGen
