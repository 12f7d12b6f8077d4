import ProxyGen.Proofs.Unwrapping
import ProxyGen.Proofs.Variables

/-! What becomes of the arguments of a forwarding method. Soft arguments give way to what is inside them before
the call, hard ones in the call itself, and the items of a variadic argument one after the other in a loop that
fills a slice of its own. -/
namespace ProxyGen

open Code

theorem String.append_ne {name suffix other : String} (ends : ¬ suffix.toList <:+ other.toList) :
    name ++ suffix ≠ other := by
  rintro rfl
  exact ends ⟨name.toList,String.toList_append.symm⟩

namespace Plan

/-- What a method is given for a value of a parameter's type. A value of a hard type is a proxy and gives way to
its inner field, or to the address of that field. A value of a soft type gives way to the inner field if it
holds the proxy of its own interface, and not if it is nil or holds anything else. -/
inductive Passes (p : Plan) (t : TypeExpr) (v : Value) : Value → Prop
  | plain (unwrapped : ∀ e ∈ p.catalog.entries, e.key = t.key → e.status = .none) : Passes p t v v
  | hard {e : Entry} {inner : Value} (member : e ∈ p.catalog.entries) (same : e.key = t.key)
      (isHard : e.status = .hard) (field : v.select innerName = .ok inner) :
      Passes p t v (if 0 < e.descriptor.depth then .ref inner else inner)
  | own {e : Entry} {handle inner : Value} (member : e ∈ p.catalog.entries) (same : e.key = t.key)
      (isSoft : e.status = .soft) (holds : v = .boxed (.pointer (.name (p.proxyName e))) handle)
      (field : handle.select innerName = .ok inner) : Passes p t v inner
  | foreign {e : Entry} (member : e ∈ p.catalog.entries) (same : e.key = t.key) (isSoft : e.status = .soft)
      (holds : v = .nil ∨ ∃ type held, type ≠ .pointer (.name (p.proxyName e)) ∧ v = .boxed type held) :
      Passes p t v v

/-- What a method is given for an argument. The items of a variadic argument are passed one by one in a slice of
their own, unless the argument can be passed as it is. -/
inductive Delivers (p : Plan) : TypeExpr × Bool → Value → Value → Prop
  | single {t : TypeExpr} {v w : Value} (passes : p.Passes t v w) : Delivers p (t,false) v w
  | whole {elem : TypeExpr} {v : Value}
      (unwrapped : ∀ e ∈ p.catalog.entries, e.key = elem.key → e.status = .none) : Delivers p (elem,true) v v
  | each {elem : TypeExpr} {e : Entry} {items passed : List Value} (member : e ∈ p.catalog.entries)
      (same : e.key = elem.key) (wrapped : e.status ≠ .none) (passes : List.Forall₂ (p.Passes elem) items passed) :
      Delivers p (elem,true) (.slice items) (.slice passed)

/-- One value for each parameter, in order. -/
inductive Delivered (p : Plan) : List (TypeExpr × Bool) → List Value → List Value → Prop
  | nil : Delivered p [] [] []
  | cons {param : TypeExpr × Bool} {params : List (TypeExpr × Bool)} {v w : Value} {args passed : List Value}
      (first : p.Delivers param v w) (others : Delivered p params args passed) :
      Delivered p (param :: params) (v :: args) (w :: passed)

/-- The value in an interface that holds the proxy of an entry, and any other value as it is. -/
def takenOut (p : Plan) (e : Entry) (v : Value) : Except Fault Value :=
  match v.assert? (.pointer (.name (p.proxyName e))) with
  | .error fault => .error fault
  | .ok none => .ok v
  | .ok (some handle) => handle.select innerName

def uncovered (e : Entry) (v : Value) : Except Fault Value :=
  (v.select innerName).map fun inner => if 0 < e.descriptor.depth then .ref inner else inner

def opened (p : Plan) (e : Entry) (v : Value) : Except Fault Value :=
  if e.status = .soft then p.takenOut e v else uncovered e v

section Passes
variable {p : Plan} {t elem : TypeExpr} {v w : Value} {e : Entry}

theorem unwrapped_of_none (distinct : p.catalog.keys.Nodup) (missing : p.entryAtLeast? .soft t = none) :
    ∀ e ∈ p.catalog.entries, e.key = t.key → e.status = .none := by
  intro e member same
  by_contra wrapped
  have reached : .soft ≤ e.status := by
    cases status : e.status with
    | none => exact absurd status wrapped
    | soft => decide
    | hard => decide
  rw [entryAtLeast?_of_mem distinct member same reached] at missing
  cases missing

theorem takenOut_eq_ok_iff : p.takenOut e v = .ok w ↔
    (∃ handle, v = .boxed (.pointer (.name (p.proxyName e))) handle ∧ handle.select innerName = .ok w) ∨
      w = v ∧ (v = .nil ∨ ∃ type held, type ≠ .pointer (.name (p.proxyName e)) ∧ v = .boxed type held) := by
  unfold takenOut
  cases v with
  | nil => simp [Value.assert?,eq_comm]
  | boxed type held =>
    by_cases own : type = .pointer (.name (p.proxyName e))
    · simp [Value.assert?,own]
    · simp [Value.assert?,own,eq_comm]
  | _ => simp [Value.assert?]

theorem passes_iff_opened (distinct : p.catalog.keys.Nodup) (found : p.entryAtLeast? .soft t = some e) :
    p.Passes t v w ↔ p.opened e v = .ok w := by
  obtain ⟨member,same,reached⟩ := entryAtLeast?_some found
  have only {x : Entry} (present : x ∈ p.catalog.entries) (key : x.key = t.key) : x = e :=
    Catalog.entry_unique distinct present member (key.trans same.symm)
  unfold opened
  constructor
  · intro passes
    cases passes with
    | plain unwrapped =>
      rw [unwrapped e member same] at reached
      exact absurd reached (by decide)
    | hard present key isHard field =>
      obtain rfl := only present key
      rw [if_neg (by simp [isHard]),uncovered,field]
      rfl
    | own present key isSoft holds field =>
      obtain rfl := only present key
      rw [if_pos isSoft,takenOut_eq_ok_iff]
      exact .inl ⟨_,holds,field⟩
    | foreign present key isSoft holds =>
      obtain rfl := only present key
      rw [if_pos isSoft,takenOut_eq_ok_iff]
      exact .inr ⟨rfl,holds⟩
  · intro opens
    split at opens
    next isSoft =>
      rcases takenOut_eq_ok_iff.mp opens with ⟨handle,holds,field⟩ | ⟨rfl,holds⟩
      · exact .own member same isSoft holds field
      · exact .foreign member same isSoft holds
    next notSoft =>
      have isHard : e.status = .hard := by
        cases status : e.status with
        | none =>
          rw [status] at reached
          exact absurd reached (by decide)
        | soft => exact absurd status notSoft
        | hard => rfl
      unfold uncovered at opens
      cases field : v.select innerName with
      | error fault =>
        rw [field] at opens
        cases opens
      | ok inner =>
        rw [field] at opens
        cases opens
        exact .hard member same isHard field

theorem passes_iff_same (distinct : p.catalog.keys.Nodup) (missing : p.entryAtLeast? .soft t = none) :
    p.Passes t v w ↔ w = v := by
  have unwrapped := unwrapped_of_none distinct missing
  constructor
  · intro passes
    cases passes with
    | plain => rfl
    | hard present key isHard field => simp [unwrapped _ present key] at isHard
    | own present key isSoft holds field => simp [unwrapped _ present key] at isSoft
    | foreign present key isSoft holds => rfl
  · rintro rfl
    exact .plain unwrapped

end Passes

section Runs
variable {p : Plan} {e : Entry} {host : Host} {vars : Vars} {calls : List Call} {s : State}
  {value target : Expr} {holder name : String} {v : Value}

theorem value_uncovered (bound : vars.lookup name = some v) (e : Entry) :
    (hardInner e (.ident name)).value host vars calls = (uncovered e v).map (·,calls) := by
  rw [value_hardInner bound,uncovered]
  cases v.select innerName <;> rfl

/-- Where the assertion holds the target gets the inner field, in the block that the handle is known in. -/
theorem exec_takeOut (p : Plan) (e : Entry) (target : Expr)
    (known : value.value host s.vars s.calls = .ok (v,s.calls)) (other : holder ≠ "ok") :
    Stmt.exec host (p.takeOut e holder value target) s =
      match v.assert? (.pointer (.name (p.proxyName e))) with
      | .error fault => .error fault
      | .ok none => .ok (s,none)
      | .ok (some handle) =>
        (State.store host ⟨(holder,handle) :: ("ok",.bool true) :: s.vars,s.calls⟩ target
          (.selector (.ident holder) innerName)).map fun after => (s.leave after,none) := by
  have truth (handle : Value) (b : Bool) :
      (Expr.ident "ok").value host ((holder,handle) :: ("ok",.bool b) :: s.vars) s.calls =
        .ok (.bool b,s.calls) := by
    apply Expr.value_ident
    rw [lookup_cons_other (Ne.symm other),List.lookup_cons_self]
  unfold takeOut
  rw [Stmt.exec,Stmt.execInit,Stmt.exec,Expr.valuesFor,known]
  simp only [bind,Except.bind,pure,Except.pure]
  cases v.assert? (.pointer (.name (p.proxyName e))) with
  | error fault => rfl
  | ok held =>
    cases held with
    | none =>
      simp only [State.define,List.length_cons,List.length_nil,if_true,List.zip_cons_cons,List.zip_nil_left,
        List.cons_append,List.nil_append,truth,Value.truth,Bool.false_eq_true,if_false]
      exact congrArg (fun after => Except.ok (after,none))
        (State.leave_front s [(holder,_),("ok",_)] rfl s.calls)
    | some handle =>
      simp only [State.define,List.length_cons,List.length_nil,if_true,List.zip_cons_cons,List.zip_nil_left,
        List.cons_append,List.nil_append,truth,Value.truth]
      rw [Stmt.execAll_single,Stmt.exec_assign]
      cases State.store host _ target _ <;> rfl

/-- The body of the loop: the item goes into its slot, opened. -/
def fillSlot (p : Plan) (e : Entry) (copied : String) : List Stmt :=
  let slot := Expr.index (.ident copied) (.ident "idx")
  if e.status = .soft then [.assign slot (.ident "elem"),p.takeOut e "elemProxy" (.ident "elem") slot]
  else [.assign slot (hardInner e (.ident "elem"))]

/-- The variables in a loop over the items of a slice that fills another one. -/
def looping (copied : String) (item : Value) (i : Nat) (base : Vars) (filled : List Value) : Vars :=
  ("elem",item) :: ("idx",.int i) :: (copied,.slice filled) :: base

section Loop
variable {copied : String} {item : Value} {i : Nat} {base : Vars} {filled : List Value}
  (apart : copied ≠ "elem" ∧ copied ≠ "idx")
include apart

theorem lookup_looping : (looping copied item i base filled).lookup copied = some (.slice filled) := by
  rw [looping,lookup_cons_other apart.1,lookup_cons_other apart.2,List.lookup_cons_self]

theorem put_looping (filled' : List Value) : Vars.put copied (.slice filled') (looping copied item i base filled) =
    looping copied item i base filled' := by
  rw [looping,Vars.put_further (Ne.symm apart.1),Vars.put_further (Ne.symm apart.2),Vars.put_here]
  rfl

/-- Stores into the slot of the present item, also from blocks with variables of their own. -/
theorem store_slot (front : Vars) (outside : copied ∉ front.map Prod.fst) (free : "idx" ∉ front.map Prod.fst)
    (inside : i < filled.length) (value : Expr) :
    State.store host ⟨front ++ looping copied item i base filled,calls⟩
      (.index (.ident copied) (.ident "idx")) value =
        (value.value host (front ++ looping copied item i base filled) calls).map fun result =>
          ⟨front ++ looping copied item i base (filled.set i result.1),result.2⟩ := by
  have bound : (front ++ looping copied item i base filled).lookup copied = some (.slice filled) :=
    (Vars.lookup_front outside).trans (lookup_looping apart)
  have position : (Expr.ident "idx").value host (front ++ looping copied item i base filled) calls =
      .ok (.int i,calls) := Expr.value_ident (Vars.lookup_front free)
  rw [store_index (s := ⟨front ++ looping copied item i base filled,calls⟩) bound position inside]
  simp only [Vars.put_front outside,put_looping apart]

theorem exec_takeOut_slot (p : Plan) (e : Entry) (own : copied ≠ "elemProxy" ∧ copied ≠ "ok")
    (inside : i < filled.length) (here : filled.set i item = filled) :
    Stmt.exec host (p.takeOut e "elemProxy" (.ident "elem") (.index (.ident copied) (.ident "idx")))
      ⟨looping copied item i base filled,calls⟩ = (p.takenOut e item).map fun w =>
        (⟨looping copied item i base (filled.set i w),calls⟩,none) := by
  rw [exec_takeOut p e _ (v := item) (Expr.value_ident rfl) (by decide),takenOut]
  cases item.assert? (.pointer (.name (p.proxyName e))) with
  | error fault => rfl
  | ok held =>
    cases held with
    | none => simp only [Except.map,here]
    | some handle =>
      let front : Vars := [("elemProxy",handle),("ok",.bool true)]
      have inner : (Expr.selector (.ident "elemProxy") innerName).value host
          (front ++ looping copied item i base filled) calls = (handle.select innerName).map (·,calls) :=
        Expr.value_selector (Expr.value_ident rfl) innerName
      have outside : copied ∉ front.map Prod.fst := by simp [front,own]
      dsimp only
      change Except.map _ (State.store host ⟨front ++ looping copied item i base filled,calls⟩ _ _) = _
      rw [store_slot apart front outside (by simp [front]) inside,inner]
      cases handle.select innerName with
      | error fault => rfl
      | ok w =>
        have leaves := State.leave_front ⟨looping copied item i base filled,calls⟩ front
          (show (looping copied item i base (filled.set i w)).length = _ from rfl) calls
        exact congrArg (fun after => Except.ok (after,none)) leaves

theorem execAll_fillSlot (p : Plan) (e : Entry) (own : copied ≠ "elemProxy" ∧ copied ≠ "ok")
    (inside : i < filled.length) :
    Stmt.execAll host (p.fillSlot e copied) ⟨looping copied item i base filled,calls⟩ =
      (p.opened e item).map fun w => (⟨looping copied item i base (filled.set i w),calls⟩,none) := by
  have stored (value : Expr) : State.store host ⟨looping copied item i base filled,calls⟩
      (.index (.ident copied) (.ident "idx")) value =
        (value.value host (looping copied item i base filled) calls).map fun result =>
          ⟨looping copied item i base (filled.set i result.1),result.2⟩ :=
    store_slot apart [] List.not_mem_nil List.not_mem_nil inside value
  unfold fillSlot opened
  split
  next isSoft =>
    have assigned : Stmt.exec host (.assign (.index (.ident copied) (.ident "idx")) (.ident "elem"))
        ⟨looping copied item i base filled,calls⟩ =
          .ok (⟨looping copied item i base (filled.set i item),calls⟩,none) := by
      rw [Stmt.exec_assign,stored,Expr.value_ident rfl]
      rfl
    rw [Stmt.execAll_cons assigned,Stmt.execAll_single,
      exec_takeOut_slot apart p e own (by simpa using inside) (List.set_set ..)]
    simp only [List.set_set]
  next notSoft =>
    rw [Stmt.execAll_single,Stmt.exec_assign,stored,value_uncovered rfl]
    cases uncovered e item <;> rfl

end Loop

/-- The items of a slice, each of them opened. -/
def copiedOut (p : Plan) (e : Entry) : Value → Except Fault Value
  | .slice items => (items.mapM (p.opened e)).map .slice
  | _ => .error .illTyped

theorem values_len (bound : vars.lookup name = some v) (free : vars.lookup "len" = none) :
    (Expr.call (.ident "len") [.ident name] false).values host vars calls =
      host.call ⟨.func "len",[v],false⟩ calls := by
  have given : Expr.valuesOfAll host vars [.ident name] calls = .ok ([v],calls) :=
    Expr.valuesOfAll_idle (.cons (fun _ => Expr.value_ident bound) .nil) calls
  exact Expr.values_call (Expr.value_function free calls) given

/-- A slice of the same length is made, and the loop fills it. -/
theorem execAll_copy (p : Plan) (e : Entry) {copied : String} (apart : copied ≠ "elem" ∧ copied ≠ "idx")
    (own : copied ≠ "elemProxy" ∧ copied ≠ "ok") (bound : s.vars.lookup name = some v)
    (free : s.vars.lookup "len" = none) (other : name ≠ copied) (type : TypeRef) :
    Stmt.execAll host
      [.define [copied] (.make (.slice type) (.call (.ident "len") [.ident name] false)),
        .range "idx" "elem" (.ident name) (p.fillSlot e copied)] s =
      (p.copiedOut e v).map fun w => (⟨(copied,w) :: s.vars,s.calls⟩,none) := by
  have length : (Expr.call (.ident "len") [.ident name] false).values host s.vars s.calls =
      host.call ⟨.func "len",[v],false⟩ s.calls := values_len bound free
  cases v with
  | slice items =>
    have made : (Expr.make (.slice type) (.call (.ident "len") [.ident name] false)).value host s.vars s.calls =
        .ok (.slice (List.replicate items.length (.zeroOf type)),s.calls) := by
      rw [Expr.value,Expr.values,length]
      rfl
    have known : (Expr.ident name).value host
        ((copied,.slice (List.replicate items.length (.zeroOf type))) :: s.vars) s.calls =
          .ok (.slice items,s.calls) :=
      Expr.value_ident ((lookup_cons_other other _ _).trans bound)
    let step (i : Nat) (item : Value) (s : State) : Outcome :=
      (Stmt.execAll host (p.fillSlot e copied) ⟨("elem",item) :: ("idx",.int i) :: s.vars,s.calls⟩).map fun out =>
        (s.leave out.1,out.2)
    have each : ∀ i item (filled : List Value), i < filled.length →
        step i item ⟨(copied,.slice filled) :: s.vars,s.calls⟩ = (p.opened e item).map fun w =>
          (⟨(copied,.slice (filled.set i w)) :: s.vars,s.calls⟩,none) := by
      intro i item filled inside
      change Except.map _ (Stmt.execAll host (p.fillSlot e copied) ⟨looping copied item i s.vars filled,s.calls⟩) = _
      rw [execAll_fillSlot apart p e own inside]
      cases p.opened e item with
      | error fault => rfl
      | ok w =>
        have leaves := State.leave_front ⟨(copied,.slice filled) :: s.vars,s.calls⟩ [("elem",item),("idx",.int i)]
          (show ((copied,.slice (filled.set i w)) :: s.vars).length = _ from rfl) s.calls
        exact congrArg (fun after => Except.ok (after,none)) leaves
    have ran := iterate_put each [] items (List.replicate items.length (.zeroOf type)) (by simp)
    rw [Stmt.execAll_cons (Stmt.exec_define copied made),Stmt.execAll_single,Stmt.exec_range known]
    refine ran.trans ?_
    dsimp only [copiedOut]
    cases items.mapM (p.opened e) <;> rfl
  | _ =>
    have refused : (Expr.make (.slice type) (.call (.ident "len") [.ident name] false)).values host s.vars s.calls =
        .error .illTyped := by
      rw [Expr.values,length]
      rfl
    rw [Stmt.execAll,Stmt.exec_define_refused copied refused]
    rfl

theorem execAll_takeOut (p : Plan) (e : Entry) (bound : s.vars.lookup name = some v) (other : name ≠ "ok") :
    Stmt.execAll host [p.takeOut e (name ++ "Proxy") (.ident name) (.ident name)] s =
      (p.takenOut e v).map fun w => (⟨Vars.put name w s.vars,s.calls⟩,none) := by
  have apart : name ++ "Proxy" ≠ name := fun same => by simpa using congrArg String.length same
  have holder : name ++ "Proxy" ≠ "ok" := String.append_ne (by decide)
  rw [Stmt.execAll_single,exec_takeOut p e _ (Expr.value_ident bound) holder,takenOut]
  cases v.assert? (.pointer (.name (p.proxyName e))) with
  | error fault => rfl
  | ok held =>
    cases held with
    | none => simp only [Except.map,Vars.put_same bound]
    | some handle =>
      let front : Vars := [(name ++ "Proxy",handle),("ok",.bool true)]
      have outside : name ∉ front.map Prod.fst := by simp [front,Ne.symm apart,other]
      have visible : (front ++ s.vars).lookup name = some v := (Vars.lookup_front outside).trans bound
      have inner : (Expr.selector (.ident (name ++ "Proxy")) innerName).value host (front ++ s.vars) s.calls =
          (handle.select innerName).map (·,s.calls) :=
        Expr.value_selector (Expr.value_ident List.lookup_cons_self) innerName
      dsimp only
      change Except.map _ (State.store host ⟨front ++ s.vars,s.calls⟩ _ _) = _
      rw [store_ident visible,inner]
      cases handle.select innerName with
      | error fault => rfl
      | ok w =>
        have leaves := State.leave_front s front (Vars.length_put name w s.vars) s.calls
        rw [← Vars.put_front outside] at leaves
        exact congrArg (fun after => Except.ok (after,none)) leaves

end Runs
end Plan
end ProxyGen
