import Mathlib.Data.List.Forall2
import ProxyGen.Lookup
import ProxyGen.Proofs.Execution

/-! The variables of running code. A block may define names of its own and give new values to variables of the
blocks around it; when it ends its own names are gone and the new values stay. -/
namespace ProxyGen.Code

namespace Vars

/-- Gives a new value to the innermost variable of a name. -/
def put (name : String) (v : Value) : Vars → Vars
  | [] => []
  | (key,old) :: rest => if key = name then (key,v) :: rest else (key,old) :: put name v rest

section Put
variable {vars : Vars} {name key : String} {v old : Value}

theorem put_here (name : String) (v old : Value) (vars : Vars) :
    put name v ((name,old) :: vars) = (name,v) :: vars := if_pos rfl

theorem put_further (other : key ≠ name) (v old : Value) (vars : Vars) :
    put name v ((key,old) :: vars) = (key,old) :: put name v vars := if_neg other

theorem length_put (name : String) (v : Value) (vars : Vars) : (put name v vars).length = vars.length := by
  induction vars with
  | nil => rfl
  | cons first rest ih =>
    obtain ⟨key,old⟩ := first
    by_cases here : key = name
    · rw [here,put_here,List.length_cons,List.length_cons]
    · rw [put_further here,List.length_cons,ih,List.length_cons]

theorem lookup_put_self (bound : vars.lookup name = some old) :
    (put name v vars).lookup name = some v := by
  induction vars with
  | nil => cases bound
  | cons first rest ih =>
    obtain ⟨key,u⟩ := first
    by_cases here : key = name
    · rw [here,put_here,List.lookup_cons_self]
    · rw [put_further here,lookup_cons_other (Ne.symm here)]
      rw [lookup_cons_other (Ne.symm here)] at bound
      exact ih bound

theorem lookup_put_other (other : key ≠ name) : (put name v vars).lookup key = vars.lookup key := by
  induction vars with
  | nil => rfl
  | cons first rest ih =>
    obtain ⟨k,u⟩ := first
    by_cases here : k = name
    · rw [here,put_here,lookup_cons_other other,lookup_cons_other other]
    · rw [put_further here,List.lookup_cons,List.lookup_cons,ih]

theorem lookup_front {front : Vars} (outside : name ∉ front.map Prod.fst) :
    (front ++ vars).lookup name = vars.lookup name := by
  induction front with
  | nil => rfl
  | cons first rest ih =>
    rw [List.map_cons,List.mem_cons,not_or] at outside
    exact (lookup_cons_other outside.1 first.2 _).trans (ih outside.2)

theorem put_front {front : Vars} (outside : name ∉ front.map Prod.fst) (v : Value) :
    put name v (front ++ vars) = front ++ put name v vars := by
  induction front with
  | nil => rfl
  | cons first rest ih =>
    rw [List.map_cons,List.mem_cons,not_or] at outside
    exact (put_further (Ne.symm outside.1) v first.2 _).trans (congrArg _ (ih outside.2))

/-- A variable that is given the value it has stays as it is. -/
theorem put_same (bound : vars.lookup name = some v) : put name v vars = vars := by
  induction vars with
  | nil => rfl
  | cons first rest ih =>
    obtain ⟨key,u⟩ := first
    by_cases here : key = name
    · subst here
      rw [List.lookup_cons_self] at bound
      cases bound
      exact put_here key v v rest
    · rw [lookup_cons_other (Ne.symm here)] at bound
      rw [put_further here,ih bound]

end Put

/-- The names of a definition stand for its values. -/
theorem lookup_zip {names : List String} {values : List Value} (distinct : names.Nodup)
    (lengths : names.length = values.length) (vars : Vars) :
    List.Forall₂ (fun name v => (names.zip values ++ vars).lookup name = some v) names values := by
  induction names generalizing values with
  | nil =>
    obtain rfl : values = [] := by simpa using lengths.symm
    exact .nil
  | cons name rest ih =>
    cases values with
    | nil => cases lengths
    | cons v others =>
      obtain ⟨fresh,distinct⟩ := List.nodup_cons.mp distinct
      refine .cons List.lookup_cons_self ?_
      have below := ih distinct (Nat.succ.inj lengths)
      rw [List.forall₂_iff_zip] at below ⊢
      refine ⟨below.1,fun member => ?_⟩
      have other : _ ≠ name := fun same => fresh (same ▸ (List.of_mem_zip member).1)
      exact (lookup_cons_other other v _).trans (below.2 member)

theorem lookup_zip_other {name : String} {names : List String} (outside : name ∉ names)
    (values : List Value) (vars : Vars) : (names.zip values ++ vars).lookup name = vars.lookup name := by
  apply lookup_front
  intro inside
  obtain ⟨pair,among,rfl⟩ := List.mem_map.mp inside
  exact outside (List.of_mem_zip among).1

/-- All variables but those of some names have the values they had. -/
def Keeps (touched : List String) (before after : Vars) : Prop :=
  ∀ name ∉ touched, after.lookup name = before.lookup name

end Vars

section Runs
variable {host : Host} {vars : Vars} {s s' : State} {e f target : Expr} {v w callee : Value}
  {name : String} {calls calls' : List Call}

theorem State.assign_eq (bound : s.vars.lookup name = some w) (v : Value) :
    s.assign name v = .ok ⟨Vars.put name v s.vars,s.calls⟩ := by
  obtain ⟨vars,calls⟩ := s
  have found : ∃ i, vars.findIdx? (·.1 == name) = some i ∧ vars.set i (name,v) = Vars.put name v vars := by
    induction vars with
    | nil => cases bound
    | cons first rest ih =>
      obtain ⟨key,old⟩ := first
      by_cases here : key = name
      · exact ⟨0,by simp [List.findIdx?_cons,here],by rw [here,Vars.put_here]; rfl⟩
      · dsimp only at bound
        rw [lookup_cons_other (Ne.symm here)] at bound
        obtain ⟨i,found,same⟩ := ih bound
        refine ⟨i + 1,by simp [List.findIdx?_cons,here,found],?_⟩
        rw [Vars.put_further here,← same]
        rfl
  obtain ⟨i,found,same⟩ := found
  simp only [assign,found,same]

/-- A block that has put names before the variables takes them away again. -/
theorem State.leave_front (s : State) (front : Vars) {vars : Vars} (lengths : vars.length = s.vars.length)
    (calls : List Call) : s.leave ⟨front ++ vars,calls⟩ = ⟨vars,calls⟩ := by
  have surplus : (front ++ vars).length - s.vars.length = front.length := by
    rw [List.length_append]
    omega
  simp only [leave,surplus,List.drop_left]

theorem store_ident (bound : s.vars.lookup name = some w) (e : Expr) :
    s.store host (.ident name) e = (e.value host s.vars s.calls).map fun result =>
      ⟨Vars.put name result.1 s.vars,result.2⟩ := by
  unfold State.store
  cases e.value host s.vars s.calls with
  | error fault => rfl
  | ok result => exact State.assign_eq (s := ⟨s.vars,result.2⟩) bound result.1

theorem store_index {items : List Value} {position : Expr} {k : Nat}
    (bound : s.vars.lookup name = some (.slice items))
    (number : position.value host s.vars s.calls = .ok (.int k,s.calls)) (inside : k < items.length)
    (e : Expr) : s.store host (.index (.ident name) position) e =
      (e.value host s.vars s.calls).map fun result =>
        ⟨Vars.put name (.slice (items.set k result.1)) s.vars,result.2⟩ := by
  unfold State.store
  simp only [Expr.value_ident bound,number,bind,Except.bind]
  cases e.value host s.vars s.calls with
  | error fault => rfl
  | ok result =>
    simp only [Value.items,Value.position,inside,if_true]
    exact State.assign_eq (s := ⟨s.vars,result.2⟩) bound _

/-- A function that answers with one value has one when it is called. -/
theorem Host.call_one {c : Call} {result : List Value × List Call} (answers : ∀ calls, (host calls c).length = 1)
    (answered : host.call c calls = .ok result) : ∃ v, result.1 = [v] := by
  unfold Host.call at answered
  split at answered
  next =>
    split at answered
    next =>
      cases answered
      exact ⟨_,rfl⟩
    next => cases answered
  next =>
    cases answered
    exact List.length_eq_one_iff.mp (answers calls)
  next =>
    cases answered
    exact List.length_eq_one_iff.mp (answers calls)
  next =>
    cases answered
    exact List.length_eq_one_iff.mp (answers calls)
  next => cases answered
  next => cases answered

namespace Expr

/-- A name that no variable has is that of a function. -/
theorem value_function (free : vars.lookup name = none) (calls : List Call) :
    (ident name).value host vars calls = .ok (.func name,calls) := by
  simp [value,values,single,free]

theorem value_eq_ok_iff : e.value host vars calls = .ok (v,calls') ↔
    e.values host vars calls = .ok ([v],calls') := by
  refine ⟨values_of_value,fun known => ?_⟩
  rw [value,known]
  rfl

theorem valuesOfAll_cons (e : Expr) (rest : List Expr) (calls : List Call) :
    valuesOfAll host vars (e :: rest) calls = (e.value host vars calls).bind fun first =>
      (valuesOfAll host vars rest first.2).map fun others => (first.1 :: others.1,others.2) := by
  rw [valuesOfAll]
  unfold value
  cases single (values host vars e calls) with
  | error fault => rfl
  | ok first =>
    simp only [bind,Except.bind]
    cases valuesOfAll host vars rest first.2 <;> rfl

/-- Where nothing is called the values come to what they are at any time. -/
theorem valuesOfAll_idle {es : List Expr} {values : List Value}
    (each : List.Forall₂ (fun e v => ∀ calls, e.value host vars calls = .ok (v,calls)) es values)
    (calls : List Call) : valuesOfAll host vars es calls = .ok (values,calls) := by
  induction each with
  | nil => rw [valuesOfAll]
  | cons first _ ih =>
    rw [valuesOfAll_cons,first]
    simp only [Except.bind,ih,Except.map]

theorem values_call {args : List Expr} {given : List Value} {calls'' : List Call} {spread : Bool}
    (known : f.value host vars calls = .ok (callee,calls'))
    (passed : valuesOfAll host vars args calls' = .ok (given,calls'')) :
    (call f args spread).values host vars calls = host.call ⟨callee,given,spread⟩ calls'' := by
  unfold value at known
  rw [values,known]
  simp only [bind,Except.bind,passed]

theorem values_call_refused {args : List Expr} {fault : Fault} {spread : Bool}
    (known : f.value host vars calls = .ok (callee,calls'))
    (refused : valuesOfAll host vars args calls' = .error fault) :
    (call f args spread).values host vars calls = .error fault := by
  unfold value at known
  rw [values,known]
  simp only [bind,Except.bind,refused]

end Expr

namespace Stmt

theorem exec_assign (target e : Expr) (s : State) :
    exec host (.assign target e) s = (s.store host target e).map (·,none) := by
  rw [exec]
  cases s.store host target e <;> rfl

theorem exec_range {key item : String} {collection : Expr} {items : List Value}
    (known : collection.value host s.vars s.calls = .ok (.slice items,calls)) (body : List Stmt) :
    exec host (.range key item collection body) s =
      iterate (fun i v s => (execAll host body ⟨(item,v) :: (key,.int i) :: s.vars,s.calls⟩).map fun out =>
        (s.leave out.1,out.2)) 0 items ⟨s.vars,calls⟩ := by
  rw [exec,known]
  rfl

theorem exec_define_refused (name : String) {fault : Fault}
    (refused : e.values host s.vars s.calls = .error fault) :
    exec host (.define [name] e) s = .error fault := by
  rw [exec,Expr.valuesFor_single,refused]
  rfl

theorem execAll_append (first rest : List Stmt) (s : State) :
    execAll host (first ++ rest) s = (execAll host first s).bind fun outcome =>
      match outcome with
      | (s',none) => execAll host rest s'
      | (s',some values) => .ok (s',some values) := by
  induction first generalizing s with
  | nil =>
    rw [List.nil_append,execAll]
    rfl
  | cons stmt others ih =>
    rw [List.cons_append,execAll,execAll]
    cases exec host stmt s with
    | error fault => rfl
    | ok outcome =>
      obtain ⟨s',_ | values⟩ := outcome
      · exact ih s'
      · rfl

theorem execAll_single (stmt : Stmt) (s : State) : execAll host [stmt] s = exec host stmt s := by
  rw [execAll]
  cases exec host stmt s with
  | error fault => rfl
  | ok outcome =>
    obtain ⟨s',_ | values⟩ := outcome
    · simp only [bind,Except.bind,execAll]
    · rfl

/-- However many expressions are returned, each gives one value if it gives any. -/
theorem exec_ret_all {es : List Expr} (one : ∀ e ∈ es, ∀ result,
    e.values host s.vars s.calls = .ok result → ∃ v, result.1 = [v]) :
    exec host (.ret es) s = (Expr.valuesOfAll host s.vars es s.calls).map fun result =>
      (⟨s.vars,result.2⟩,some result.1) := by
  match es with
  | [e] =>
    rw [exec,Expr.valuesOfAll_cons,Expr.value]
    cases computed : e.values host s.vars s.calls with
    | error fault => rfl
    | ok result =>
      obtain ⟨v,value⟩ := one e List.mem_cons_self result computed
      obtain ⟨_,calls⟩ := result
      obtain rfl : _ = [v] := value
      simp only [single,bind,Except.bind,Expr.valuesOfAll,Except.map,pure,Except.pure]
  | [] | _ :: _ :: _ =>
    rw [exec]
    · cases Expr.valuesOfAll host s.vars _ s.calls <;> rfl
    · simp

theorem exec_define_all {names : List String} {values : List Value} {args : List Expr} {spread : Bool}
    (known : (Expr.call f args spread).values host s.vars s.calls = .ok (values,calls))
    (lengths : names.length = values.length) :
    exec host (.define names (.call f args spread)) s =
      .ok (⟨names.zip values ++ s.vars,calls⟩,none) := by
  have wanted : (Expr.call f args spread).valuesFor host s.vars names s.calls =
      (Expr.call f args spread).values host s.vars s.calls := by
    unfold Expr.valuesFor
    split
    next same => cases same
    next => rfl
  rw [exec,wanted,known]
  simp only [bind,Except.bind,State.define,lengths,if_true]
  rfl

end Stmt

/-- A loop that puts what it makes of each item into a slice makes something of all items, or fails where it
fails for one of them. -/
theorem iterate_put {block : Nat → Value → State → Outcome} {make : Value → Except Fault Value} {base : Vars}
    (each : ∀ i item (filled : List Value), i < filled.length →
      block i item ⟨(name,.slice filled) :: base,calls⟩ = (make item).map fun w =>
        (⟨(name,.slice (filled.set i w)) :: base,calls⟩,none)) (done todo rest : List Value)
    (lengths : todo.length = rest.length) :
    iterate block done.length todo ⟨(name,.slice (done ++ rest)) :: base,calls⟩ =
      (todo.mapM make).map fun made => (⟨(name,.slice (done ++ made)) :: base,calls⟩,none) := by
  -- The induction is on the items that are left; the slots of those before them hold what was made of them.
  induction todo generalizing done rest with
  | nil =>
    obtain rfl : rest = [] := by simpa using lengths.symm
    rfl
  | cons item later ih =>
    cases rest with
    | nil => cases lengths
    | cons slot rest =>
      rw [iterate,each _ _ _ (by simp),List.mapM_cons]
      cases make item with
      | error fault => rfl
      | ok w =>
        have filled : (done ++ slot :: rest).set done.length w = (done ++ [w]) ++ rest := by simp
        have next := ih (done ++ [w]) rest (Nat.succ.inj lengths)
        simp only [List.length_append,List.length_singleton] at next
        simp only [Except.map,bind,Except.bind,filled,next]
        cases later.mapM make with
        | error fault => rfl
        | ok made => simp [pure,Except.pure]

end Runs

namespace Stmt

mutual

/-- The names that a statement defines. -/
def binds : Stmt → List String
  | define names _ => names
  | ifThen init _ body => bindsOfInit init ++ bindsOfAll body
  | range key value _ body => key :: value :: bindsOfAll body
  | assign _ _ | ret _ | expr _ | blank => []

def bindsOfInit : Option Stmt → List String
  | none => []
  | some s => s.binds

def bindsOfAll : List Stmt → List String
  | [] => []
  | s :: rest => s.binds ++ bindsOfAll rest

end

attribute [simp] binds bindsOfInit bindsOfAll

theorem bindsOfAll_append (first rest : List Stmt) :
    bindsOfAll (first ++ rest) = bindsOfAll first ++ bindsOfAll rest := by
  induction first with
  | nil => rfl
  | cons s others ih => simp [ih]

end Stmt
end ProxyGen.Code
