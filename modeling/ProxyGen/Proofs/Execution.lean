import ProxyGen.Code.Tree

/-!
What generated code does when it runs. It never stores through a reference, and into no slice but those it has
just made, so both are known by what they lead to. Functions outside the generated code answer as `Host` says;
the calls that have been made are recorded, the latest first.
-/
namespace ProxyGen.Code

inductive Value
  /-- The nil of references and of interfaces. -/
  | nil
  | bool (value : Bool)
  | int (value : Nat)
  /-- A value that generated code only passes on, calls, or calls methods of. -/
  | atom (id : Nat)
  | zero (type : TypeRef)
  | ref (target : Value)
  | struct (type : TypeRef) (fields : List (String × Value))
  | slice (items : List Value)
  /-- What an interface holds, under the type it has itself. -/
  | boxed (type : TypeRef) (value : Value)
  | func (name : String)
  | method (receiver : Value) (name : String)

inductive Fault
  | nilDereference
  | outOfRange
  | failedAssertion
  /-- Code that does not compile. -/
  | illTyped
  deriving DecidableEq

structure Call where
  callee : Value
  args : List Value
  spread : Bool

/-- The answers to a call after the calls that were made before. -/
abbrev Host := List Call → Call → List Value

/-- The local variables, the innermost first. -/
abbrev Vars := List (String × Value)

namespace Value

/-- References, one to the other, of which the last leads to a value. -/
def refs : Nat → Value → Value
  | 0, v => v
  | n + 1, v => ref (refs n v)

def zeroOf : TypeRef → Value
  | .pointer _ => nil
  | .slice _ => slice []
  | t => zero t

def deref : Value → Except Fault Value
  | ref v => .ok v
  | nil => .error .nilDereference
  | _ => .error .illTyped

def isNil : Value → Except Fault Bool
  | nil => .ok true
  | ref _ | boxed _ _ => .ok false
  | _ => .error .illTyped

def truth : Value → Except Fault Bool
  | bool b => .ok b
  | _ => .error .illTyped

/-- A field of a struct, or of a struct behind one reference; of any other value, a method. -/
def select (field : String) : Value → Except Fault Value
  | nil => .error .nilDereference
  | struct _ fields | ref (struct _ fields) =>
    match fields.lookup field with
    | some v => .ok v
    | none => .error .illTyped
  | ref (ref _) | ref nil | ref (boxed _ _) => .error .illTyped
  | v => .ok (method v field)

def items : Value → Except Fault (List Value)
  | slice vs => .ok vs
  | _ => .error .illTyped

def position (items : List Value) : Value → Except Fault Nat
  | int i => if i < items.length then .ok i else .error .outOfRange
  | _ => .error .illTyped

/-- The value in an interface if it has the given type. -/
def assert? (type : TypeRef) : Value → Except Fault (Option Value)
  | nil => .ok none
  | boxed t v => .ok (if t = type then some v else none)
  | _ => .error .illTyped

def made (type : TypeRef) (length : Value) : Except Fault Value :=
  match type, length with
  | .slice t, int n => .ok (slice (List.replicate n (zeroOf t)))
  | _, _ => .error .illTyped

end Value

/-- Calls a function; `len` is part of the language. -/
def Host.call (host : Host) (c : Call) (calls : List Call) : Except Fault (List Value × List Call) :=
  match c.callee with
  | .func "len" =>
    match c.args with
    | [.slice items] => .ok ([.int items.length],calls)
    | _ => .error .illTyped
  | .func _ | .method _ _ | .atom _ => .ok (host calls c,c :: calls)
  | .nil => .error .nilDereference
  | _ => .error .illTyped

/-- What stands for a variable and so has an address; a literal is given one. -/
def Expr.addressable : Expr → Bool
  | ident _ | deref _ | index _ _ | composite _ _ => true
  | selector e _ => e.addressable
  | _ => false

/-- The one value that is wanted where several may have been computed. -/
def single : Except Fault (List Value × List Call) → Except Fault (Value × List Call)
  | .ok ([v],calls) => .ok (v,calls)
  | .ok _ => .error .illTyped
  | .error fault => .error fault

namespace Expr

mutual

/-- The values of an expression; a call may have any number of them. A name that is not local is that of a
function. -/
def values (host : Host) (vars : Vars) : Expr → List Call → Except Fault (List Value × List Call)
  | ident name, calls => .ok ([(vars.lookup name).getD (.func name)],calls)
  | nil, calls => .ok ([.nil],calls)
  | selector e field, calls => do
    let (v,calls) ← single (values host vars e calls)
    return ([← v.select field],calls)
  | call f args spread, calls => do
    let (callee,calls) ← single (values host vars f calls)
    let (args,calls) ← valuesOfAll host vars args calls
    host.call ⟨callee,args,spread⟩ calls
  | addrOf e, calls => do
    let (v,calls) ← single (values host vars e calls)
    if e.addressable then return ([.ref v],calls) else throw .illTyped
  | deref e, calls => do
    let (v,calls) ← single (values host vars e calls)
    return ([← v.deref],calls)
  | composite type fields, calls => do
    let (fields,calls) ← valuesOfFields host vars fields calls
    return ([.struct type fields],calls)
  | binary "==" e nil, calls => do
    let (v,calls) ← single (values host vars e calls)
    return ([.bool (← v.isNil)],calls)
  | binary "||" a b, calls => do
    let (v,calls) ← single (values host vars a calls)
    if ← v.truth then return ([.bool true],calls)
    else
      let (v,calls) ← single (values host vars b calls)
      return ([.bool (← v.truth)],calls)
  | binary _ _ _, _ => throw .illTyped
  | index e i, calls => do
    let (v,calls) ← single (values host vars e calls)
    let (i,calls) ← single (values host vars i calls)
    let items ← v.items
    return ([items.getD (← i.position items) .nil],calls)
  | typeAssert e type, calls => do
    let (v,calls) ← single (values host vars e calls)
    match ← v.assert? type with
    | some v => return ([v],calls)
    | none => throw .failedAssertion
  | make type n, calls => do
    let (n,calls) ← single (values host vars n calls)
    return ([← Value.made type n],calls)

def valuesOfAll (host : Host) (vars : Vars) :
    List Expr → List Call → Except Fault (List Value × List Call)
  | [], calls => .ok ([],calls)
  | e :: rest, calls => do
    let (v,calls) ← single (values host vars e calls)
    let (rest,calls) ← valuesOfAll host vars rest calls
    return (v :: rest,calls)

def valuesOfFields (host : Host) (vars : Vars) :
    List (String × Expr) → List Call → Except Fault (Vars × List Call)
  | [], calls => .ok ([],calls)
  | field :: rest, calls => do
    let (v,calls) ← single (values host vars field.2 calls)
    let (rest,calls) ← valuesOfFields host vars rest calls
    return ((field.1,v) :: rest,calls)

end

section
-- The equations are derived here, before the lemmas, which would all have to wait for them.
attribute [local simp] values valuesOfAll valuesOfFields
end

def value (host : Host) (vars : Vars) (e : Expr) (calls : List Call) : Except Fault (Value × List Call) :=
  single (e.values host vars calls)

section Values
variable {host : Host} {vars : Vars} {e : Expr} {v : Value} {calls calls' : List Call}

theorem values_of_value (known : e.value host vars calls = .ok (v,calls')) :
    e.values host vars calls = .ok ([v],calls') := by
  unfold value single at known
  split at known
  next computed =>
    cases known
    exact computed
  next => cases known
  next => cases known

theorem value_ident {name : String} (bound : vars.lookup name = some v) :
    (ident name).value host vars calls = .ok (v,calls) := by
  simp [value,values,single,bound]

theorem value_deref (known : e.value host vars calls = .ok (v,calls')) :
    (deref e).value host vars calls = v.deref.map (·,calls') := by
  unfold value at known ⊢
  rw [values,known]
  cases v <;> rfl

theorem value_selector (known : e.value host vars calls = .ok (v,calls')) (field : String) :
    (selector e field).value host vars calls = (v.select field).map (·,calls') := by
  unfold value at known ⊢
  simp only [values,known]
  cases selected : v.select field <;> simp [bind,Except.bind,Except.map,pure,Except.pure,single,selected]

theorem value_addrOf (addressable : e.addressable = true) : (addrOf e).value host vars calls =
    (e.value host vars calls).map fun result => (.ref result.1,result.2) := by
  unfold value
  rw [values,addressable]
  cases single (values host vars e calls) <;> rfl

theorem value_addrOf_ident {name : String} (bound : vars.lookup name = some v) :
    (addrOf (ident name)).value host vars calls = .ok (.ref v,calls) := by
  rw [value_addrOf rfl,value_ident bound]
  rfl

theorem value_isNil (known : e.value host vars calls = .ok (v,calls')) :
    e.isNil.value host vars calls = v.isNil.map (.bool ·,calls') := by
  unfold value at known ⊢
  rw [isNil,values,known]
  cases v <;> rfl

theorem value_or_true {other : Expr} (known : e.value host vars calls = .ok (.bool true,calls')) :
    (e.or other).value host vars calls = .ok (.bool true,calls') := by
  unfold value at known ⊢
  rw [Expr.or,values,known]
  rfl

theorem value_or_false {other : Expr} {b : Bool} {calls'' : List Call}
    (known : e.value host vars calls = .ok (.bool false,calls'))
    (next : other.value host vars calls' = .ok (.bool b,calls'')) :
    (e.or other).value host vars calls = .ok (.bool b,calls'') := by
  unfold value at known next ⊢
  rw [Expr.or,values,known]
  change single (Except.bind (single (values host vars other calls')) _) = _
  rw [next]
  rfl

theorem valuesOfFields_cons {name : String} {fields : List (String × Expr)} {rest : Vars} {calls'' : List Call}
    (known : e.value host vars calls = .ok (v,calls'))
    (others : valuesOfFields host vars fields calls' = .ok (rest,calls'')) :
    valuesOfFields host vars ((name,e) :: fields) calls = .ok ((name,v) :: rest,calls'') := by
  unfold value at known
  rw [valuesOfFields,known]
  simp only [bind,Except.bind,others]
  rfl

theorem value_composite {type : TypeRef} {fields : List (String × Expr)} {rest : Vars}
    (known : valuesOfFields host vars fields calls = .ok (rest,calls')) :
    (composite type fields).value host vars calls = .ok (.struct type rest,calls') := by
  rw [value,values,known]
  rfl

end Values

/-- The values for the names of a definition. Two names for a type assertion ask whether it holds. -/
def valuesFor (host : Host) (vars : Vars) (names : List String) (e : Expr) (calls : List Call) :
    Except Fault (List Value × List Call) :=
  match names, e with
  | [_,_], typeAssert e type => do
    let (v,calls) ← e.value host vars calls
    match ← v.assert? type with
    | some v => return ([v,.bool true],calls)
    | none => return ([.zeroOf type,.bool false],calls)
  | _, e => e.values host vars calls

theorem valuesFor_single (host : Host) (vars : Vars) (name : String) (e : Expr) (calls : List Call) :
    e.valuesFor host vars [name] calls = e.values host vars calls := by
  cases e <;> rfl

end Expr

structure State where
  vars : Vars
  calls : List Call

namespace State

/-- The state after a block in which `inner` was reached: the variables of the block are gone. -/
def leave (outer inner : State) : State :=
  { inner with vars := inner.vars.drop (inner.vars.length - outer.vars.length) }

@[simp] theorem leave_self (s : State) (calls : List Call) : s.leave ⟨s.vars,calls⟩ = ⟨s.vars,calls⟩ := by
  simp [leave]

def define (s : State) (names : List String) (values : List Value) : Except Fault State :=
  if names.length = values.length then .ok { s with vars := names.zip values ++ s.vars }
  else .error .illTyped

/-- Gives a new value to the innermost variable of a name. -/
def assign (s : State) (name : String) (v : Value) : Except Fault State :=
  match s.vars.findIdx? (·.1 == name) with
  | some i => .ok { s with vars := s.vars.set i (name,v) }
  | none => .error .illTyped

/-- Assigns to a variable, or to an item of a slice that a variable holds. -/
def store (host : Host) (s : State) (target e : Expr) : Except Fault State :=
  match target with
  | .ident name => do
    let (v,calls) ← e.value host s.vars s.calls
    assign { s with calls } name v
  | .index (.ident name) i => do
    let (slice,calls) ← (Expr.ident name).value host s.vars s.calls
    let (i,calls) ← i.value host s.vars calls
    let (v,calls) ← e.value host s.vars calls
    let items ← slice.items
    assign { s with calls } name (.slice (items.set (← i.position items) v))
  | _ => .error .illTyped

end State

/-- What comes of running statements: the state, and the values if they return. -/
abbrev Outcome := Except Fault (State × Option (List Value))

/-- Runs a block for the values of a slice, which it is given with their numbers, until it returns. -/
def iterate (block : Nat → Value → State → Outcome) : Nat → List Value → State → Outcome
  | _, [], s => .ok (s,none)
  | i, v :: rest, s => do
    match ← block i v s with
    | (s,none) => iterate block (i + 1) rest s
    | (s,some values) => return (s,some values)

namespace Stmt

mutual

def exec (host : Host) : Stmt → State → Outcome
  | define names e, s => do
    let (values,calls) ← e.valuesFor host s.vars names s.calls
    return (← State.define { s with calls } names values,none)
  | assign target e, s => do return (← s.store host target e,none)
  | ifThen init cond body, s => do
    let before ← execInit host init s
    let (v,calls) ← cond.value host before.vars before.calls
    let before := { before with calls }
    if ← v.truth then
      let (after,returned) ← execAll host body before
      return (s.leave after,returned)
    else return (s.leave before,none)
  | range key value collection body, s => do
    let (v,calls) ← collection.value host s.vars s.calls
    let block (i : Nat) (item : Value) (s : State) : Outcome := do
      let (after,returned) ← execAll host body { s with vars := (value,item) :: (key,.int i) :: s.vars }
      return (s.leave after,returned)
    iterate block 0 (← v.items) { s with calls }
  | ret [e], s => do
    let (values,calls) ← e.values host s.vars s.calls
    return ({ s with calls },some values)
  | ret es, s => do
    let (values,calls) ← Expr.valuesOfAll host s.vars es s.calls
    return ({ s with calls },some values)
  | expr e, s => do
    let (_,calls) ← e.values host s.vars s.calls
    return ({ s with calls },none)
  | blank, s => .ok (s,none)

def execInit (host : Host) : Option Stmt → State → Except Fault State
  | none, s => .ok s
  | some first, s => do return (← exec host first s).1

def execAll (host : Host) : List Stmt → State → Outcome
  | [], s => .ok (s,none)
  | first :: rest, s => do
    match ← exec host first s with
    | (s,none) => execAll host rest s
    | (s,some values) => return (s,some values)

end

section
attribute [local simp] exec execInit execAll
end

section Blocks
variable {host : Host} {s s' : State} {first : Stmt} {rest : List Stmt} {values : List Value}
  {e : Expr} {v : Value} {calls : List Call}

theorem execAll_cons (ran : exec host first s = .ok (s',none)) :
    execAll host (first :: rest) s = execAll host rest s' := by
  rw [execAll,ran]
  rfl

theorem execAll_cons_returned (ran : exec host first s = .ok (s',some values)) :
    execAll host (first :: rest) s = .ok (s',some values) := by
  rw [execAll,ran]
  rfl

theorem exec_define (name : String) (known : e.value host s.vars s.calls = .ok (v,calls)) :
    exec host (.define [name] e) s = .ok (⟨(name,v) :: s.vars,calls⟩,none) := by
  rw [exec,Expr.valuesFor_single,Expr.values_of_value known]
  rfl

theorem exec_ret (known : e.value host s.vars s.calls = .ok (v,calls)) :
    exec host (.ret [e]) s = .ok (⟨s.vars,calls⟩,some [v]) := by
  rw [exec,Expr.values_of_value known]
  rfl

theorem exec_ifThen_true {cond : Expr} {body : List Stmt} {returned : Option (List Value)}
    (holds : cond.value host s.vars s.calls = .ok (.bool true,calls))
    (ran : execAll host body ⟨s.vars,calls⟩ = .ok (s',returned)) :
    exec host (.ifThen none cond body) s = .ok (s.leave s',returned) := by
  rw [exec,execInit]
  simp only [bind,Except.bind,holds,Value.truth,if_true,ran]
  rfl

theorem exec_ifThen_false {cond : Expr} (body : List Stmt)
    (fails : cond.value host s.vars s.calls = .ok (.bool false,calls)) :
    exec host (.ifThen none cond body) s = .ok (⟨s.vars,calls⟩,none) := by
  rw [exec,execInit]
  simp only [bind,Except.bind,fails,Value.truth]
  simp [pure,Except.pure]

end Blocks

end Stmt

/-- Runs a function on a receiver, if it has one, and arguments. -/
def FuncDecl.run (host : Host) (f : FuncDecl) (receiver : Option Value) (args : List Value)
    (calls : List Call) : Except Fault (List Value × List Call) := do
  let names := f.receiver.toList.map (·.name) ++ f.params.map (·.name)
  let start ← State.define ⟨[],calls⟩ names (receiver.toList ++ args)
  let (after,returned) ← Stmt.execAll host f.body start
  return (returned.getD [],after.calls)

end ProxyGen.Code
