import ProxyGen.Proofs.Execution
import ProxyGen.Proofs.References

/-!
What constructors return. The guard of a constructor walks down the layers of its argument and asks no more of
a layer than that all layers above it are references, which is what makes it safe.
-/
namespace ProxyGen

open Code

namespace Code.Value

/-- The values of a type with so many references. Below them an interface is nil or holds something; other
kinds may have any value. -/
inductive Ranges (kind : Kind) : Nat → Value → Prop
  | none (n : Nat) : Ranges kind (n + 1) nil
  | ref {n : Nat} {v : Value} (below : Ranges kind n v) : Ranges kind (n + 1) (ref v)
  | empty (abstract : kind = .interface) : Ranges kind 0 nil
  | held (abstract : kind = .interface) (type : TypeRef) (v : Value) : Ranges kind 0 (boxed type v)
  | plain (concrete : kind ≠ .interface) (v : Value) : Ranges kind 0 v

theorem refs_ref (n : Nat) (v : Value) : refs n (ref v) = ref (refs n v) := by
  induction n with
  | zero => rfl
  | succ n ih => exact congrArg ref ih

theorem refs_eq_nil {n : Nat} {v : Value} : refs n v = nil ↔ n = 0 ∧ v = nil := by
  cases n <;> simp [refs]

theorem nil_of_refs {n k : Nat} {v : Value} (same : refs n v = refs k nil) :
    ∃ j, k = n + j ∧ v = refs j nil := by
  induction n generalizing k with
  | zero => exact ⟨k,by simp,same⟩
  | succ n ih =>
    cases k with
    | zero => cases same
    | succ k =>
      obtain ⟨j,rfl,rfl⟩ := ih (Value.ref.inj same)
      exact ⟨j,by omega,rfl⟩

/-- Either some layer is nil, or all references lead on to a value that is not a nil interface. -/
theorem Ranges.cases {kind : Kind} {n : Nat} {v : Value} (ranges : Ranges kind n v) :
    (∃ k < n + (if kind = .interface then 1 else 0), v = refs k nil) ∨
      ∃ inner, v = refs n inner ∧ (kind = .interface → ∃ t u, inner = boxed t u) := by
  induction ranges with
  | none n => exact .inl ⟨0,by omega,rfl⟩
  | ref _ ih =>
    rcases ih with ⟨k,below,rfl⟩ | ⟨inner,rfl,held⟩
    · exact .inl ⟨k + 1,by omega,rfl⟩
    · exact .inr ⟨inner,rfl,held⟩
  | empty abstract => exact .inl ⟨0,by simp [abstract],rfl⟩
  | held _ t u => exact .inr ⟨_,rfl,fun _ => ⟨t,u,rfl⟩⟩
  | plain concrete v => exact .inr ⟨v,rfl,fun abstract => absurd abstract concrete⟩

end Code.Value

namespace Plan

section Runs
variable {host : Host} {vars : Vars} {calls calls' : List Call} {e cond : Expr} {v : Value} {s : State}

theorem value_derefs {n : Nat} (known : e.value host vars calls = .ok (.refs n v,calls)) :
    (derefs n e).value host vars calls = .ok (v,calls) := by
  induction n generalizing e with
  | zero => exact known
  | succ n ih =>
    have below : (Expr.deref e).value host vars calls = .ok (.refs n v,calls) := Expr.value_deref known
    exact ih below

/-- Once a test has held, what follows is not looked at. -/
theorem value_nilTests_settled (n : Nat) (holds : cond.value host vars calls = .ok (.bool true,calls)) :
    (nilTests n cond e).value host vars calls = .ok (.bool true,calls) := by
  induction n generalizing cond e with
  | zero => exact holds
  | succ n ih => exact ih (Expr.value_or_true holds)

theorem value_nilTests_nil {n k : Nat} (within : k ≤ n)
    (test : cond.value host vars calls = .ok (.bool (k == 0),calls))
    (known : e.value host vars calls = .ok (.refs k .nil,calls)) :
    (nilTests n cond e).value host vars calls = .ok (.bool true,calls) := by
  induction n generalizing k cond e with
  | zero =>
    obtain rfl : k = 0 := by omega
    exact test
  | succ n ih =>
    cases k with
    | zero => exact value_nilTests_settled n (Expr.value_or_true test)
    | succ k =>
      have below : (Expr.deref e).value host vars calls = .ok (.refs k .nil,calls) :=
        Expr.value_deref known
      have next : (Expr.deref e).isNil.value host vars calls = .ok (.bool (k == 0),calls) := by
        rw [Expr.value_isNil below]
        cases k <;> rfl
      exact ih (by omega) (Expr.value_or_false test next) below

theorem value_nilTests_whole {n : Nat} (whole : v.isNil = .ok false)
    (test : cond.value host vars calls = .ok (.bool false,calls))
    (known : e.value host vars calls = .ok (.refs n v,calls)) :
    (nilTests n cond e).value host vars calls = .ok (.bool false,calls) := by
  induction n generalizing cond e with
  | zero => exact test
  | succ n ih =>
    have below : (Expr.deref e).value host vars calls = .ok (.refs n v,calls) := Expr.value_deref known
    have next : (Expr.deref e).isNil.value host vars calls = .ok (.bool false,calls) := by
      rw [Expr.value_isNil below]
      cases n with
      | zero => exact congrArg (Except.map _) whole
      | succ n => rfl
    exact ih (Expr.value_or_false test next) below

theorem execAll_nilGuard_nil {m k : Nat} (within : k < m) (rest : List Stmt)
    (bound : s.vars.lookup innerName = some (.refs k .nil)) :
    Stmt.execAll host (nilGuard m ++ rest) s = .ok (s,some [.nil]) := by
  obtain ⟨n,rfl⟩ : ∃ n, m = n + 1 := ⟨m - 1,by omega⟩
  have known : (Expr.ident innerName).value host s.vars s.calls = .ok (.refs k .nil,s.calls) :=
    Expr.value_ident bound
  have test : (Expr.ident innerName).isNil.value host s.vars s.calls = .ok (.bool (k == 0),s.calls) := by
    rw [Expr.value_isNil known]
    cases k <;> rfl
  have holds := value_nilTests_nil (n := n) (by omega) test known
  have ran : Stmt.execAll host [.ret [.nil]] s = .ok (s,some [.nil]) :=
    Stmt.execAll_cons_returned (Stmt.exec_ret rfl)
  rw [nilGuard,List.cons_append,Stmt.execAll_cons_returned (Stmt.exec_ifThen_true holds ran)]
  exact congrArg (fun s => Except.ok (s,some [Value.nil])) (State.leave_self s s.calls)

theorem execAll_nilGuard_whole {n m : Nat} (rest : List Stmt)
    (bound : s.vars.lookup innerName = some (.refs n v))
    (whole : m = n ∨ m = n + 1 ∧ v.isNil = .ok false) :
    Stmt.execAll host (nilGuard m ++ rest) s = Stmt.execAll host rest s := by
  cases m with
  | zero => rfl
  | succ m =>
    -- The value at the last layer that the guard looks at.
    obtain ⟨last,found,live⟩ : ∃ last, Value.refs n v = .refs m last ∧ last.isNil = .ok false := by
      rcases whole with rfl | ⟨same,live⟩
      · exact ⟨.ref v,(Value.refs_ref m v).symm,rfl⟩
      · obtain rfl : m = n := by omega
        exact ⟨v,rfl,live⟩
    rw [found] at bound
    have known : (Expr.ident innerName).value host s.vars s.calls = .ok (.refs m last,s.calls) :=
      Expr.value_ident bound
    have test : (Expr.ident innerName).isNil.value host s.vars s.calls = .ok (.bool false,s.calls) := by
      rw [Expr.value_isNil known]
      cases m with
      | zero => exact congrArg (Except.map _) live
      | succ m => rfl
    have fails := value_nilTests_whole live test known
    rw [nilGuard,List.cons_append,Stmt.execAll_cons (Stmt.exec_ifThen_false _ fails)]
    exact Stmt.execAll_cons rfl

theorem execAll_referTo (n level : Nat) (bound : s.vars.lookup (levelName level) = some v) :
    ∃ vars, Stmt.execAll host (referTo n level) s = .ok (⟨vars,s.calls⟩,some [.refs (n + 1) v]) := by
  induction n generalizing level v s with
  | zero => exact ⟨s.vars,Stmt.execAll_cons_returned (Stmt.exec_ret (Expr.value_addrOf_ident bound))⟩
  | succ n ih =>
    rw [referTo,Stmt.execAll_cons (Stmt.exec_define (levelName (level + 1)) (Expr.value_addrOf_ident bound))]
    obtain ⟨vars,ran⟩ := ih (s := ⟨(levelName (level + 1),.ref v) :: s.vars,s.calls⟩) (level + 1) (v := .ref v)
      (by simp)
    exact ⟨vars,by rw [ran,Value.refs_ref]; rfl⟩

theorem execAll_returnProxy {literal : Expr} (addressable : literal.addressable = true)
    (known : literal.value host s.vars s.calls = .ok (v,s.calls)) (m : Nat) :
    ∃ vars, Stmt.execAll host (returnProxy literal m) s = .ok (⟨vars,s.calls⟩,some [.refs m v]) := by
  have address : (Expr.addrOf literal).value host s.vars s.calls = .ok (.ref v,s.calls) := by
    rw [Expr.value_addrOf addressable,known]
    rfl
  match m with
  | 0 => exact ⟨s.vars,Stmt.execAll_cons_returned (Stmt.exec_ret known)⟩
  | 1 => exact ⟨s.vars,Stmt.execAll_cons_returned (Stmt.exec_ret address)⟩
  | n + 2 =>
    rw [returnProxy,Stmt.execAll_cons (Stmt.exec_define _ address)]
    have returned : ∃ vars, Stmt.execAll host (referTo n 0) ⟨(levelName 0,.ref v) :: s.vars,s.calls⟩ =
        .ok (⟨vars,s.calls⟩,some [.refs (n + 1) (.ref v)]) := execAll_referTo n 0 (by simp)
    obtain ⟨vars,ran⟩ := returned
    exact ⟨vars,by rw [ran,Value.refs_ref]; rfl⟩

theorem value_literal {d : Descriptor} {proxy : String} {inner transform : Value}
    (bound : vars.lookup innerName = some (.refs d.depth inner))
    (given : vars.lookup transformerName = some transform) :
    (Expr.composite (.name proxy) [(innerName,derefs d.depth (.ident innerName)),
      (transformerName,.ident transformerName)]).value host vars calls =
        .ok (.struct (.name proxy) [(innerName,inner),(transformerName,transform)],calls) := by
  have known : (Expr.ident innerName).value host vars calls = .ok (.refs d.depth inner,calls) :=
    Expr.value_ident bound
  have passed : (Expr.ident transformerName).value host vars calls = .ok (transform,calls) :=
    Expr.value_ident given
  have none : Expr.valuesOfFields host vars [] calls = .ok ([],calls) := by rw [Expr.valuesOfFields]
  have rest : Expr.valuesOfFields host vars [(transformerName,.ident transformerName)] calls =
      .ok ([(transformerName,transform)],calls) := Expr.valuesOfFields_cons passed none
  exact Expr.value_composite (Expr.valuesOfFields_cons (value_derefs known) rest)

end Runs

theorem layers_eq (d : Descriptor) : layers d = d.depth + if d.kind = .interface then 1 else 0 := by
  simp [layers,Descriptor.isInterface]

/-- What a constructor makes of its arguments: nil if a layer is nil, else a proxy of the value below all
references under references of its own, one for each layer. -/
structure Wraps (d : Descriptor) (proxy : String) (arg transform handle : Value) : Prop where
  nil_iff : handle = .nil ↔ ∃ k < d.depth + (if d.kind = .interface then 1 else 0), arg = .refs k .nil
  holds : handle ≠ .nil → ∃ inner, arg = .refs d.depth inner ∧
    handle = .refs (d.depth + if d.kind = .interface then 1 else 0)
      (.struct (.name proxy) [(innerName,inner),(transformerName,transform)])

theorem wraps_of_nil {d : Descriptor} {proxy : String} {transform : Value} {k : Nat}
    (within : k < d.depth + if d.kind = .interface then 1 else 0) :
    Wraps d proxy (.refs k .nil) transform .nil where
  nil_iff := ⟨fun _ => ⟨k,within,rfl⟩,fun _ => rfl⟩
  holds live := absurd rfl live

theorem wraps_of_whole {d : Descriptor} {proxy : String} {inner transform : Value}
    (whole : d.kind = .interface → ∃ t u, inner = .boxed t u) :
    Wraps d proxy (.refs d.depth inner) transform
      (.refs (d.depth + if d.kind = .interface then 1 else 0)
        (.struct (.name proxy) [(innerName,inner),(transformerName,transform)])) where
  nil_iff := by
    constructor
    · intro nil
      cases (Value.refs_eq_nil.mp nil).2
    · rintro ⟨k,within,same⟩
      obtain ⟨j,rfl,rfl⟩ := Value.nil_of_refs same
      split at within
      next abstract =>
        obtain ⟨t,u,held⟩ := whole abstract
        obtain rfl : j = 0 := by omega
        cases held
      next => omega
  holds _ := ⟨inner,rfl,rfl⟩

/-- A constructor returns, whatever it is given. -/
theorem constructor_wraps (p : Plan) (e : Entry) (proxy : String) (host : Host) (calls : List Call)
    {arg : Value} (ranges : arg.Ranges e.descriptor.kind e.descriptor.depth) (transform : Value) :
    ∃ handle, (p.constructor e proxy).run host none [arg,transform] calls = .ok ([handle],calls) ∧
      Wraps e.descriptor proxy arg transform handle := by
  let start : State := ⟨[(innerName,arg),(transformerName,transform)],calls⟩
  have bound : start.vars.lookup innerName = some arg := by simp [start]
  have given : start.vars.lookup transformerName = some transform := by
    simp [start,List.lookup_cons,innerName,transformerName]
  -- The constructor's outcome is that of its body.
  have returns (vars : Vars) {handle : Value}
      (ran : Stmt.execAll host (constructorBody e.descriptor proxy) start =
        .ok (⟨vars,calls⟩,some [handle])) :
      (p.constructor e proxy).run host none [arg,transform] calls = .ok ([handle],calls) := by
    change (Stmt.execAll host (constructorBody e.descriptor proxy) start >>= fun result =>
      pure (result.2.getD [],result.1.calls)) = _
    rw [ran]
    rfl
  rcases ranges.cases with ⟨k,within,rfl⟩ | ⟨inner,rfl,whole⟩
  · refine ⟨.nil,returns start.vars ?_,wraps_of_nil within⟩
    rw [← layers_eq] at within
    exact execAll_nilGuard_nil within _ bound
  · refine ⟨_,?_,wraps_of_whole whole⟩
    let literal := Expr.composite (.name proxy) [(innerName,derefs e.descriptor.depth (.ident innerName)),
      (transformerName,.ident transformerName)]
    have known : literal.value host start.vars start.calls =
        .ok (.struct (.name proxy) [(innerName,inner),(transformerName,transform)],start.calls) :=
      value_literal bound given
    obtain ⟨vars,ran⟩ := execAll_returnProxy rfl known (layers e.descriptor)
    refine returns vars ?_
    rw [constructorBody,execAll_nilGuard_whole _ bound,ran,layers_eq]
    rw [layers_eq]
    split
    next abstract =>
      obtain ⟨t,u,rfl⟩ := whole abstract
      exact .inr ⟨rfl,rfl⟩
    next => exact .inl rfl

/-- What is generated to wrap the values of a type. -/
structure Constructible (p : Plan) (e : Entry) : Prop where
  wraps : ∀ (host : Host) (calls : List Call) (arg transform : Value),
    arg.Ranges e.descriptor.kind e.descriptor.depth →
      ∃ handle, (p.constructor e (p.proxyName e)).run host none [arg,transform] calls =
        .ok ([handle],calls) ∧ Wraps e.descriptor (p.proxyName e) arg transform handle
  results : e.status = .hard → (p.constructor e (p.proxyName e)).results =
    [.pointers (e.descriptor.depth + if e.descriptor.kind = .interface then 1 else 0)
      (.name (p.proxyName e))]
  declared : e.status ≠ .none → ∀ units, p.units = .ok units →
    ∃ unit ∈ units, Decl.func (p.constructor e (p.proxyName e)) ∈ unit.file.decls

theorem constructible_of_grown {u : Universe} {c : Catalog} (grown : Catalog.Grown u c) (target : Target) :
    ∀ e ∈ c.entries, Constructible ⟨c,u,target⟩ e := by
  have good := grown.wellFormed
  intro e member
  constructor
  case wraps =>
    intro host calls arg transform ranges
    exact constructor_wraps _ e _ host calls ranges transform
  case results =>
    intro isHard
    have own := (Catalog.ofType_key (good.described e member).1).1
    have type := wrappedType_of_hard (p := ⟨c,u,target⟩) good.distinct member own isHard
    rw [layers_eq] at type
    exact congrArg (fun ref => [ref]) type
  case declared =>
    intro wrapped units ok
    obtain ⟨unit,among,_,variant,name⟩ := unit_of_wrapped (p := ⟨c,u,target⟩) good ok member wrapped
    have declared := (unit_emits ok among good.distinct).2 e member variant
    rw [name] at declared
    exact ⟨unit,among,declared⟩

/-- The constructor for references to the server: nil for nil, and a reference for a reference. -/
theorem sample_constructible : ∃ units,
    Catalog.Grown Sample.types (Sample.catalog .hard) ∧
      Sample.serverRefEntry .hard ∈ (Sample.catalog .hard).entries ∧
      (Sample.serverRefEntry .hard).status = .hard ∧ Sample.plan.units = .ok units ∧
      Value.nil.Ranges .struct 1 ∧ (Value.ref (.atom 0)).Ranges .struct 1 ∧
      ∃ f, f = Sample.plan.constructor (Sample.serverRefEntry .hard) "PS" ∧
        (∃ unit ∈ units, Decl.func f ∈ unit.file.decls) ∧ f.results = [.pointer (.name "PS")] ∧
        f.run (fun _ _ => []) none [.nil,.atom 1] [] = .ok ([.nil],[]) ∧
        f.run (fun _ _ => []) none [.ref (.atom 0),.atom 1] [] =
          .ok ([.ref (.struct (.name "PS") [(innerName,.atom 0),(transformerName,.atom 1)])],[]) := by
  have grown : Catalog.Grown Sample.types (Sample.catalog .hard) := .of_run Sample.run_types
  have member : Sample.serverRefEntry .hard ∈ (Sample.catalog .hard).entries := List.mem_cons_self
  have concrete : Kind.struct ≠ .interface := by decide
  have wrapped : (Sample.serverRefEntry .hard).status ≠ .none := by decide
  have nil : Value.nil.Ranges .struct 1 := .none 0
  have whole : (Value.ref (.atom 0)).Ranges .struct 1 := .ref (.plain concrete _)
  have name : Sample.plan.proxyName (Sample.serverRefEntry .hard) = "PS" := Sample.proxyName_server
  obtain ⟨units,planned⟩ := Sample.plan_units
  have built : Constructible Sample.plan (Sample.serverRefEntry .hard) :=
    constructible_of_grown grown ⟨"out","","Transform"⟩ _ member
  obtain ⟨wraps,results,declared⟩ := built
  rw [name] at wraps results declared
  refine ⟨units,grown,member,rfl,planned,nil,whole,_,rfl,declared wrapped units planned,results rfl,?_,?_⟩
  · obtain ⟨handle,ran,settled⟩ := wraps (fun _ _ => []) [] _ (.atom 1) nil
    rw [settled.nil_iff.mpr ⟨0,by decide,rfl⟩] at ran
    exact ran
  · obtain ⟨handle,ran,settled⟩ := wraps (fun _ _ => []) [] _ (.atom 1) whole
    have live : handle ≠ .nil := by
      intro none
      obtain ⟨k,within,same⟩ := settled.nil_iff.mp none
      obtain rfl : k = 0 := by change k < 1 at within; omega
      cases same
    obtain ⟨inner,below,rfl⟩ := settled.holds live
    obtain rfl : Value.atom 0 = inner := Value.ref.inj below
    exact ran

end Plan
end ProxyGen
