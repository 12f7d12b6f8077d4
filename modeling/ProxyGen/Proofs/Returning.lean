import ProxyGen.Proofs.Aliases
import ProxyGen.Proofs.Arguments

/-! What a forwarding method returns. The values that have come back become variables, one for each result, and of
each variable the error transformer or a constructor may make something else before it is returned. -/
namespace ProxyGen

open Code

namespace Plan

/-- What is returned for a value of a result type, and the calls that have been made by then. An error goes through
the transformer, and a value of a type that needs a proxy through the constructor of the type. -/
inductive Returned (p : Plan) (host : Host) (transform : Value) (t : TypeExpr) (v : Value) (calls : List Call) :
    Value → List Call → Prop
  | transformed {w : Value} {after : List Call} (error : t.isError = true)
      (answer : host.call ⟨transform,[v],false⟩ calls = .ok ([w],after)) :
      Returned p host transform t v calls w after
  | wrapped {e : Entry} {w : Value} {after : List Call} (value : t.isError = false)
      (member : e ∈ p.catalog.entries) (same : e.key = t.key) (needs : e.status ≠ .none)
      (answer : host.call ⟨.func (Naming.constructorName p.types e.descriptor),[v,transform],false⟩ calls =
        .ok ([w],after)) : Returned p host transform t v calls w after
  | plain (value : t.isError = false) (unwrapped : ∀ e ∈ p.catalog.entries, e.key = t.key → e.status = .none) :
      Returned p host transform t v calls v calls

/-- One value for each result, in order. -/
inductive Returns (p : Plan) (host : Host) (transform : Value) : List Param → List Value → List Call →
    List Value → List Call → Prop
  | nil (calls : List Call) : Returns p host transform [] [] calls [] calls
  | cons {r : Param} {results : List Param} {v w : Value} {values returned : List Value}
      {calls between after : List Call} (first : p.Returned host transform r.type v calls w between)
      (others : Returns p host transform results values between returned after) :
      Returns p host transform (r :: results) (v :: values) calls (w :: returned) after

theorem resultName_injective {i j : Nat} (same : resultName i = resultName j) : i = j :=
  toString_injective (String.append_right_inj "r" |>.mp same)

section Returning
variable {p : Plan} {host : Host} {vars : Vars} {calls : List Call} {receiver name : String}
  {self transform v w : Value} {t : TypeExpr} {after : List Call}

theorem value_transformer (known : vars.lookup receiver = some self)
    (field : self.select transformerName = .ok transform) (host : Host) (calls : List Call) :
    (Expr.selector (.ident receiver) transformerName).value host vars calls = .ok (transform,calls) := by
  rw [Expr.value_selector (Expr.value_ident known),field]
  rfl

section Value
variable (bound : vars.lookup name = some v) (known : vars.lookup receiver = some self)
  (field : self.select transformerName = .ok transform)
  (free : ∀ key, Reference.call key ∈
    (p.returned (.selector (.ident receiver) transformerName) (.ident name) t).references → vars.lookup key = none)
include bound known field free

theorem values_returned :
    (p.returned (.selector (.ident receiver) transformerName) (.ident name) t).values host vars calls =
      if t.isError then host.call ⟨transform,[v],false⟩ calls
      else match p.entryAtLeast? .soft t with
        | some e =>
          host.call ⟨.func (Naming.constructorName p.types e.descriptor),[v,transform],false⟩ calls
        | none => .ok ([v],calls) := by
  have own (calls : List Call) : (Expr.ident name).value host vars calls = .ok (v,calls) := Expr.value_ident bound
  have transformer := value_transformer known field
  unfold returned at free ⊢
  split
  next => exact Expr.values_call (transformer host calls) (Expr.valuesOfAll_idle (.cons own .nil) calls)
  next value =>
    cases found : p.entryAtLeast? .soft t with
    | none => exact Expr.values_of_value (own calls)
    | some e =>
      have missing : vars.lookup (Naming.constructorName p.types e.descriptor) = none :=
        free _ (by simp [value,found])
      exact Expr.values_call (Expr.value_function missing calls)
        (Expr.valuesOfAll_idle (.cons own (.cons (transformer host) .nil)) calls)

theorem one_returned (transformer : ∀ calls args, (host calls ⟨transform,args,false⟩).length = 1)
    (constructors : ∀ calls name args, (host calls ⟨.func name,args,false⟩).length = 1)
    {result : List Value × List Call}
    (computed : (p.returned (.selector (.ident receiver) transformerName) (.ident name) t).values host vars calls =
      .ok result) : ∃ v, result.1 = [v] := by
  rw [values_returned bound known field free] at computed
  split at computed
  · exact Host.call_one (fun calls => transformer calls _) computed
  · split at computed
    · exact Host.call_one (fun calls => constructors calls _ _) computed
    · cases computed
      exact ⟨v,rfl⟩

/-- What the expression for a result comes to is what is returned for it. -/
theorem returned_iff (distinct : p.catalog.keys.Nodup) :
    (p.returned (.selector (.ident receiver) transformerName) (.ident name) t).values host vars calls =
      .ok ([w],after) ↔ p.Returned host transform t v calls w after := by
  rw [values_returned bound known field free]
  cases error : t.isError with
  | true =>
    rw [if_pos rfl]
    constructor
    · exact .transformed error
    · intro returned
      cases returned with
      | transformed _ answer => exact answer
      | wrapped value => simp [error] at value
      | plain value => simp [error] at value
  | false =>
    rw [if_neg Bool.false_ne_true]
    cases found : p.entryAtLeast? .soft t with
    | none =>
      have unwrapped := unwrapped_of_none distinct found
      constructor
      · intro same
        cases same
        exact .plain error unwrapped
      · intro returned
        cases returned with
        | transformed isError => simp [error] at isError
        | wrapped _ member same needs => exact absurd (unwrapped _ member same) needs
        | plain => rfl
    | some e =>
      obtain ⟨member,same,_⟩ := entryAtLeast?_some found
      have needs := (wrapped_of_soft found).2
      constructor
      · exact .wrapped error member same needs
      · intro returned
        cases returned with
        | transformed isError => simp [error] at isError
        | wrapped _ present key _ answer =>
          obtain rfl := Catalog.entry_unique distinct present member (key.trans same.symm)
          exact answer
        | plain _ unwrapped => exact absurd (unwrapped e member same) needs

end Value

/-- A variable for each value, and the values of the results come one after the other. -/
theorem valuesOfAll_returned (known : vars.lookup receiver = some self)
    (field : self.select transformerName = .ok transform) (distinct : p.catalog.keys.Nodup)
    {names : List String} {results : List Param} {values returned : List Value}
    (bound : List.Forall₂ (fun name v => vars.lookup name = some v) names values)
    (lengths : names.length = results.length)
    (free : ∀ key, Reference.call key ∈ Expr.referencesOfAll ((names.zip results).map fun (name,r) =>
      p.returned (.selector (.ident receiver) transformerName) (.ident name) r.type) →
        vars.lookup key = none) :
    Expr.valuesOfAll host vars ((names.zip results).map fun (name,r) =>
      p.returned (.selector (.ident receiver) transformerName) (.ident name) r.type) calls =
        .ok (returned,after) ↔ p.Returns host transform results values calls returned after := by
  induction results generalizing names values returned calls with
  | nil =>
    obtain rfl : names = [] := by simpa using lengths
    cases bound
    rw [List.zip_nil_left,List.map_nil,Expr.valuesOfAll]
    constructor
    · intro same
      cases same
      exact .nil _
    · intro returns
      cases returns
      rfl
  | cons r rest ih =>
    cases bound with
    | nil => cases lengths
    | @cons name v names values first others =>
      rw [List.zip_cons_cons,List.map_cons] at free ⊢
      simp only [Expr.referencesOfAll,List.mem_append] at free
      have above := fun key inside => free key (Or.inl inside)
      have below := fun key inside => free key (Or.inr inside)
      rw [Expr.valuesOfAll_cons]
      constructor
      · intro computed
        obtain ⟨⟨w,between⟩,taken,computed⟩ := bind_ok computed
        obtain ⟨⟨tail,_⟩,later,equal⟩ := map_ok_iff.mp computed
        cases equal
        exact .cons ((returned_iff first known field above distinct).mp (Expr.value_eq_ok_iff.mp taken))
          ((ih others (Nat.succ.inj lengths) below).mp later)
      · intro returns
        cases returns with
        | cons answer later =>
          have taken := (returned_iff first known field above distinct).mpr answer
          have computed := (ih others (Nat.succ.inj lengths) below).mpr later
          rw [Expr.value_eq_ok_iff.mpr taken]
          simp only [Except.bind,computed,Except.map]

end Returning

def resultNames (n : Nat) : List String := (List.range n).map resultName

theorem resultNames_nodup (n : Nat) : (resultNames n).Nodup :=
  List.nodup_range.map fun _ _ => resultName_injective

section Calling
variable {p : Plan} {host : Host} {s : State} {receiver : String} {self transform : Value} {func : Expr}
  {args : List Expr} {spread : Bool} {results : List Param} {values returned : List Value}
  {between after : List Call}

theorem called_of_execAll {transformer : Expr} {out : State × Option (List Value)}
    (ran : Stmt.execAll host (p.callAndReturn (.call func args spread) transformer results) s = .ok out) :
    ∃ result, (Expr.call func args spread).values host s.vars s.calls = .ok result := by
  unfold callAndReturn at ran
  split at ran
  · rw [Stmt.execAll_single,Stmt.exec] at ran
    obtain ⟨result,called,_⟩ := bind_ok ran
    exact ⟨result,called⟩
  · rw [Stmt.execAll,Stmt.exec] at ran
    obtain ⟨_,defined,_⟩ := bind_ok ran
    obtain ⟨result,called,_⟩ := bind_ok defined
    rw [Expr.valuesFor] at called
    · exact ⟨result,called⟩
    · simp

theorem binds_callAndReturn (p : Plan) (call transformer : Expr) (results : List Param) :
    Stmt.bindsOfAll (p.callAndReturn call transformer results) = resultNames results.length := by
  unfold callAndReturn resultNames
  cases results with
  | nil => rfl
  | cons r rest => simp

section Answered
variable (called : (Expr.call func args spread).values host s.vars s.calls = .ok (values,between))
  (count : values.length = results.length) (known : s.vars.lookup receiver = some self)
  (field : self.select transformerName = .ok transform) (distinct : p.catalog.keys.Nodup)
  (transformer : ∀ calls args, (host calls ⟨transform,args,false⟩).length = 1)
  (constructors : ∀ calls name args, (host calls ⟨.func name,args,false⟩).length = 1)
include called count known field distinct transformer constructors

/-- The values of a call become variables, and the function returns what is made of each. -/
theorem execAll_define_ret_iff {names : List String} (apart : names.Nodup ∧ receiver ∉ names)
    (lengths : names.length = results.length)
    (free : ∀ key, Reference.call key ∈ Expr.referencesOfAll ((names.zip results).map fun (name,r) =>
      p.returned (.selector (.ident receiver) transformerName) (.ident name) r.type) →
        s.vars.lookup key = none ∧ key ∉ names) :
    (∃ s' out, Stmt.execAll host [.define names (.call func args spread),
      .ret ((names.zip results).map fun (name,r) =>
        p.returned (.selector (.ident receiver) transformerName) (.ident name) r.type)] s = .ok (s',out) ∧
          (out.getD [],s'.calls) = (returned,after)) ↔
      p.Returns host transform results values between returned after := by
  have bound := Vars.lookup_zip apart.1 (lengths.trans count.symm) s.vars
  have held := (Vars.lookup_zip_other apart.2 values s.vars).trans known
  have unbound : ∀ key, Reference.call key ∈ Expr.referencesOfAll ((names.zip results).map fun (name,r) =>
      p.returned (.selector (.ident receiver) transformerName) (.ident name) r.type) →
        (names.zip values ++ s.vars).lookup key = none := by
    intro key inside
    obtain ⟨missing,other⟩ := free key inside
    exact (Vars.lookup_zip_other other values s.vars).trans missing
  rw [Stmt.execAll_cons (Stmt.exec_define_all called (lengths.trans count.symm)),Stmt.execAll_single,
    Stmt.exec_ret_all ?one,← valuesOfAll_returned held field distinct bound lengths unbound]
  case one =>
    intro e member result computed
    obtain ⟨⟨name,r⟩,among,rfl⟩ := List.mem_map.mp member
    have each : List.Forall₂ (fun name v => (∃ w, (names.zip values ++ s.vars).lookup name = some w) ∧
        (names.zip values ++ s.vars).lookup name = some v) names values :=
      bound.imp fun name v visible => ⟨⟨v,visible⟩,visible⟩
    obtain ⟨v,visible⟩ := ((List.forall₂_and_left _ _).mp each).1 name (List.of_mem_zip among).1
    refine one_returned visible held field ?_ transformer constructors computed
    exact fun key inside => unbound key (Expr.mem_referencesOfAll.mpr ⟨_,member,inside⟩)
  constructor
  · rintro ⟨s',out,ran,equal⟩
    obtain ⟨result,computed,same⟩ := map_ok_iff.mp ran
    cases same
    cases equal
    exact computed
  · intro computed
    rw [computed]
    exact ⟨_,_,rfl,rfl⟩

theorem execAll_callAndReturn_iff (apart : receiver ∉ resultNames results.length)
    (free : ∀ key, Reference.call key ∈ Stmt.referencesOfAll (p.callAndReturn (.call func args spread)
      (.selector (.ident receiver) transformerName) results) →
        s.vars.lookup key = none ∧ key ∉ resultNames results.length) :
    (∃ s' out, Stmt.execAll host (p.callAndReturn (.call func args spread)
      (.selector (.ident receiver) transformerName) results) s = .ok (s',out) ∧
        (out.getD [],s'.calls) = (returned,after)) ↔
      p.Returns host transform results values between returned after := by
  unfold callAndReturn at free ⊢
  split
  next none =>
    obtain rfl : results = [] := by simpa using none
    obtain rfl : values = [] := by simpa using count
    rw [Stmt.execAll_single,Stmt.exec,called]
    constructor
    · rintro ⟨s',out,same,equal⟩
      cases same
      cases equal
      exact .nil between
    · intro returns
      cases returns
      exact ⟨_,_,rfl,rfl⟩
  next some =>
    refine execAll_define_ret_iff called count known field distinct transformer constructors
      ⟨resultNames_nodup _,apart⟩ (by simp) fun key inside => free key ?_
    simp only [some,Bool.false_eq_true,if_false,Stmt.referencesOfAll,Stmt.references,List.append_nil]
    exact List.mem_append_right _ inside

end Answered
end Calling

end Plan
end ProxyGen
