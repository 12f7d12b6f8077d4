import ProxyGen.Proofs.Passing

/-! The arguments of a forwarding method in their order. Each has a variable of its own, into which it is put before
the call if it has to be, and what is done for one leaves the variables of the others alone; so together they hand
the method what each of them hands it. -/
namespace ProxyGen

open Code

theorem map_ok_iff {ε α β : Type} {x : Except ε α} {f : α → β} {b : β} :
    x.map f = .ok b ↔ ∃ a, x = .ok a ∧ f a = b := by
  cases x with
  | error e => simp [Except.map]
  | ok a => simp [Except.map]

namespace Plan

/-- How an argument comes to be passed: what is put into a variable before the call, and what is made of that in
the call. -/
structure Passage where
  slot : String
  ready : Value → Except Fault Value
  finish : Value → Except Fault Value

def passage (p : Plan) (name : String) : TypeExpr × Bool → Passage
  | (t,variadic) =>
    match p.entryAtLeast? .soft t with
    | none => ⟨name,.ok,.ok⟩
    | some e =>
      if variadic then ⟨name ++ "Inner",p.copiedOut e,.ok⟩
      else if e.status = .soft then ⟨name,p.takenOut e,.ok⟩
      else ⟨name,.ok,uncovered e⟩

theorem passage_slot (p : Plan) (name : String) (t : TypeExpr) : (p.passage name (t,false)).slot = name := by
  simp only [passage]
  split
  · rfl
  · simp only [Bool.false_eq_true,if_false]
    split <;> rfl

/-- The functions that a block calls by name are none of its variables. -/
def Free (block : List Stmt) (vars : Vars) : Prop :=
  ∀ name, Reference.call name ∈ Stmt.referencesOfAll block → vars.lookup name = none

structure Argument.Takes (host : Host) (a : Argument) (r : Passage) : Prop where
  before {s : State} {v : Value} (bound : s.vars.lookup a.param.name = some v)
    (own : a.param.name ∉ Stmt.bindsOfAll a.before) (free : Free a.before s.vars) :
    ∃ place : Value → Vars,
      (∀ x, (place x).lookup r.slot = some x ∧ Vars.Keeps [r.slot] s.vars (place x)) ∧
        Stmt.execAll host a.before s = (r.ready v).map fun x => (⟨place x,s.calls⟩,none)
  value {vars : Vars} {x : Value} (placed : vars.lookup r.slot = some x) (calls : List Call) :
    a.value.value host vars calls = (r.finish x).map (·,calls)

section Passage
variable {p : Plan} {host : Host} {name : String} {t elem : TypeExpr} {v w : Value}

theorem mapM_opened_iff (distinct : p.catalog.keys.Nodup) {e : Entry}
    (found : p.entryAtLeast? .soft t = some e) {items passed : List Value} :
    items.mapM (p.opened e) = .ok passed ↔ List.Forall₂ (p.Passes t) items passed := by
  constructor
  · intro ok
    exact (mapM_forall₂ ok).imp fun _ _ => (passes_iff_opened distinct found).mpr
  · intro passes
    exact mapM_of_forall₂ (passes.imp fun _ _ => (passes_iff_opened distinct found).mp)

theorem delivers_iff (distinct : p.catalog.keys.Nodup) (name : String) (param : TypeExpr × Bool) :
    p.Delivers param v w ↔
      ∃ x, (p.passage name param).ready v = .ok x ∧ (p.passage name param).finish x = .ok w := by
  obtain ⟨t,variadic⟩ := param
  cases found : p.entryAtLeast? .soft t with
  | none =>
    have unwrapped := unwrapped_of_none distinct found
    simp only [passage,found,Except.ok.injEq,exists_eq_left']
    constructor
    · intro delivers
      cases delivers with
      | single passes => exact ((passes_iff_same distinct found).mp passes).symm
      | whole => rfl
      | each member same wrapped => exact absurd (unwrapped _ member same) wrapped
    · rintro rfl
      cases variadic with
      | false => exact .single (.plain unwrapped)
      | true => exact .whole unwrapped
  | some e =>
    obtain ⟨member,same,reached⟩ := entryAtLeast?_some found
    have wrapped := (wrapped_of_soft found).2
    cases variadic with
    | false =>
      have opens : p.Delivers (t,false) v w ↔ p.opened e v = .ok w := by
        rw [← passes_iff_opened distinct found]
        exact ⟨fun | .single passes => passes,.single⟩
      rw [opens]
      simp only [passage,found,Bool.false_eq_true,if_false,opened]
      split <;> simp
    | true =>
      simp only [passage,found,if_true,Except.ok.injEq,exists_eq_right]
      constructor
      · intro delivers
        cases delivers with
        | whole unwrapped => exact absurd (unwrapped e member same) wrapped
        | each _ _ _ passes =>
          rw [copiedOut,(mapM_opened_iff distinct found).mpr passes]
          rfl
      · intro copied
        cases v with
        | slice items =>
          cases opens : items.mapM (p.opened e) with
          | error fault => simp [copiedOut,opens,Except.map] at copied
          | ok passed =>
            simp only [copiedOut,opens,Except.map,Except.ok.injEq] at copied
            rw [← copied]
            exact .each member same wrapped ((mapM_opened_iff distinct found).mp opens)
        | _ => cases copied

/-- Nothing is to be done before the call. -/
theorem takes_at_once {a : Argument} {finish : Value → Except Fault Value} (idle : a.before = [])
    (value : ∀ {vars : Vars} {x : Value}, vars.lookup a.param.name = some x → ∀ calls,
      a.value.value host vars calls = (finish x).map (·,calls)) :
    a.Takes host ⟨a.param.name,.ok,finish⟩ where
  before {s v} bound own free := by
    refine ⟨fun x => Vars.put a.param.name x s.vars,fun x => ⟨Vars.lookup_put_self bound,?_⟩,?_⟩
    · intro key other
      exact Vars.lookup_put_other (by simpa using other)
    · rw [idle,Stmt.execAll]
      simp only [Except.map,Vars.put_same bound]
  value := value

theorem argument_takes (p : Plan) (name : String) (t : TypeExpr) :
    (p.argument name t).Takes host (p.passage name (t,false)) := by
  have known {vars : Vars} {x : Value} (bound : vars.lookup name = some x) (calls : List Call) :
      (Expr.ident name).value host vars calls = .ok (x,calls) := Expr.value_ident bound
  cases found : p.entryAtLeast? .soft t with
  | none =>
    simp only [argument,passage,found]
    exact takes_at_once rfl known
  | some e =>
    simp only [argument,passage,found,Bool.false_eq_true,if_false]
    split
    next isSoft =>
      refine ⟨fun {s v} bound own _ => ?_,known⟩
      have other : name ≠ "ok" := by
        rintro rfl
        simp [takeOut] at own
      refine ⟨fun x => Vars.put name x s.vars,fun x => ⟨Vars.lookup_put_self bound,?_⟩,
        execAll_takeOut p e bound other⟩
      intro key apart
      exact Vars.lookup_put_other (by simpa using apart)
    next => exact takes_at_once rfl fun bound calls => value_uncovered bound e

theorem variadicArgument_takes (p : Plan) (name : String) (elem : TypeExpr) :
    (p.variadicArgument name elem).Takes host (p.passage name (elem,true)) := by
  have known (name : String) {vars : Vars} {x : Value} (bound : vars.lookup name = some x) (calls : List Call) :
      (Expr.ident name).value host vars calls = .ok (x,calls) := Expr.value_ident bound
  cases found : p.entryAtLeast? .soft elem with
  | none =>
    simp only [variadicArgument,passage,found]
    exact takes_at_once rfl (known name)
  | some e =>
    simp only [variadicArgument,passage,found,if_true]
    refine ⟨fun {s v} bound own free => ?_,known _⟩
    have other : name ≠ name ++ "Inner" := fun same => by simpa using congrArg String.length same
    have length : s.vars.lookup "len" = none := free "len" (by simp)
    refine ⟨fun x => (name ++ "Inner",x) :: s.vars,fun x => ⟨List.lookup_cons_self,?_⟩,?_⟩
    · intro key apart
      exact lookup_cons_other (by simpa using apart) _ _
    · exact execAll_copy p e ⟨String.append_ne (by decide),String.append_ne (by decide)⟩
        ⟨String.append_ne (by decide),String.append_ne (by decide)⟩ bound length other _

end Passage

namespace Argument

/-- The names that may change their values when arguments are made ready. -/
def touched (args : List Argument) : List String :=
  args.map (·.param.name) ++ Stmt.bindsOfAll (args.flatMap (·.before))

/-- The names of the parameters are distinct and none of those that come up when the arguments are made ready. -/
structure Clear (args : List Argument) (vars : Vars) : Prop where
  distinct : (args.map (·.param.name)).Nodup
  own : ∀ a ∈ args, a.param.name ∉ Stmt.bindsOfAll (args.flatMap (·.before))
  free : Free (args.flatMap (·.before)) vars

/-- The values of the arguments once all of them are ready. -/
def evaluated (host : Host) (args : List Argument) (s : State) : Except Fault (List Value × List Call) :=
  (Stmt.execAll host (args.flatMap (·.before)) s).bind fun out =>
    Expr.valuesOfAll host out.1.vars (args.map (·.value)) out.1.calls

end Argument

/-- Arguments give the method what it is to be given, and call nothing. -/
structure Hands (p : Plan) (host : Host) (params : List (TypeExpr × Bool)) (args : List Argument) (s : State)
    (given : List Value) : Prop where
  kept {out : State × Option (List Value)}
    (ran : Stmt.execAll host (args.flatMap (·.before)) s = .ok out) :
    ∃ vars, out = (⟨vars,s.calls⟩,none) ∧ Vars.Keeps (Argument.touched args) s.vars vars
  passed (result : List Value × List Call) : Argument.evaluated host args s = .ok result ↔
    result.2 = s.calls ∧ p.Delivered params given result.1

section Hands
variable {p : Plan} {host : Host}

theorem hands_nil (s : State) : p.Hands host [] [] s [] where
  kept {out} ran := by
    rw [List.flatMap_nil,Stmt.execAll] at ran
    cases ran
    exact ⟨s.vars,rfl,fun _ _ => rfl⟩
  passed result := by
    obtain ⟨passed,calls⟩ := result
    have nothing : Argument.evaluated host [] s = .ok ([],s.calls) := by
      simp only [Argument.evaluated,List.flatMap_nil,Stmt.execAll,Except.bind,List.map_nil,Expr.valuesOfAll]
    rw [nothing]
    constructor
    · intro same
      cases same
      exact ⟨rfl,.nil⟩
    · rintro ⟨rfl,delivered⟩
      cases delivered
      rfl

section Cons
variable {a : Argument} {rest : List Argument} {r : Passage} {s : State} {vars now : Vars} {v : Value}
  {slot name : String} {param : TypeExpr × Bool} {params : List (TypeExpr × Bool)} {given : List Value}

theorem mem_references_append {first second : List Stmt} {r : Reference} :
    r ∈ Stmt.referencesOfAll (first ++ second) ↔
      r ∈ Stmt.referencesOfAll first ∨ r ∈ Stmt.referencesOfAll second := by
  simp only [Stmt.mem_referencesOfAll,List.mem_append,or_and_right,exists_or]

theorem free_append_iff {first second : List Stmt} :
    Free (first ++ second) vars ↔ Free first vars ∧ Free second vars := by
  simp only [Free,mem_references_append,or_imp,forall_and]

theorem Argument.mem_touched_cons (a : Argument) (rest : List Argument) (name : String) :
    name ∈ touched (a :: rest) ↔ name ∈ touched [a] ∨ name ∈ touched rest := by
  simp only [touched,List.map_cons,List.map_nil,List.flatMap_cons,List.flatMap_nil,List.append_nil,
    Stmt.bindsOfAll_append,List.mem_append,List.mem_cons,List.not_mem_nil,or_false]
  grind

namespace Argument.Clear
variable (clear : Clear (a :: rest) vars)
include clear

theorem not_bound : a.param.name ∉ Stmt.bindsOfAll a.before ∧
    a.param.name ∉ Stmt.bindsOfAll (rest.flatMap (·.before)) := by
  have own := clear.own a List.mem_cons_self
  rw [List.flatMap_cons,Stmt.bindsOfAll_append,List.mem_append,not_or] at own
  exact own

theorem free_parts : Free a.before vars ∧ Free (rest.flatMap (·.before)) vars := by
  have free := clear.free
  rw [List.flatMap_cons] at free
  exact free_append_iff.mp free

/-- The others leave the slot alone, which is the variable of the parameter unless there are no others. -/
theorem outside (last : slot = a.param.name ∨ rest = []) : slot ∉ touched rest := by
  rcases last with rfl | rfl
  · rw [touched,List.mem_append,not_or]
    exact ⟨(List.nodup_cons.mp clear.distinct).1,clear.not_bound.2⟩
  · exact List.not_mem_nil

theorem tail (bound : vars.lookup a.param.name = some v) (last : slot = a.param.name ∨ rest = [])
    (kept : Vars.Keeps [slot] vars now) : Clear rest now where
  distinct := (List.nodup_cons.mp clear.distinct).2
  own := by
    intro b member inside
    apply clear.own b (List.mem_cons_of_mem _ member)
    rw [List.flatMap_cons,Stmt.bindsOfAll_append]
    exact List.mem_append_right _ inside
  free := by
    intro name inside
    have missing := clear.free_parts.2 name inside
    rcases last with rfl | rfl
    · rw [kept name ?_,missing]
      rw [List.mem_singleton]
      rintro rfl
      rw [bound] at missing
      cases missing
    · cases inside

end Argument.Clear

section Placed
variable {place : Value → Vars} (takes : a.Takes host r)
  (placed : ∀ x, (place x).lookup r.slot = some x ∧ Vars.Keeps [r.slot] s.vars (place x))
  (ran : Stmt.execAll host a.before s = (r.ready v).map fun x => (⟨place x,s.calls⟩,none))
  (next : ∀ x, p.Hands host params rest ⟨place x,s.calls⟩ given)
include placed ran next

omit placed next in
theorem execAll_before : Stmt.execAll host ((a :: rest).flatMap (·.before)) s = (r.ready v).bind fun x =>
    Stmt.execAll host (rest.flatMap (·.before)) ⟨place x,s.calls⟩ := by
  rw [List.flatMap_cons,Stmt.execAll_append,ran]
  cases r.ready v <;> rfl

theorem kept_cons (touches : r.slot ∈ Argument.touched [a]) {out : State × Option (List Value)}
    (reached : Stmt.execAll host ((a :: rest).flatMap (·.before)) s = .ok out) :
    ∃ vars, out = (⟨vars,s.calls⟩,none) ∧ Vars.Keeps (Argument.touched (a :: rest)) s.vars vars := by
  rw [execAll_before ran] at reached
  obtain ⟨x,_,reached⟩ := bind_ok reached
  obtain ⟨vars,rfl,kept⟩ := (next x).kept reached
  refine ⟨vars,rfl,fun name untouched => ?_⟩
  rw [Argument.mem_touched_cons,not_or] at untouched
  rw [kept name untouched.2]
  apply (placed x).2
  rw [List.mem_singleton]
  rintro rfl
  exact untouched.1 touches

include takes in
/-- What was put into the slot is still there when the values are computed. -/
theorem evaluated_cons_iff (outside : r.slot ∉ Argument.touched rest) (result : List Value × List Call) :
    Argument.evaluated host (a :: rest) s = .ok result ↔ ∃ x w tail, r.ready v = .ok x ∧ r.finish x = .ok w ∧
      Argument.evaluated host rest ⟨place x,s.calls⟩ = .ok tail ∧ (w :: tail.1,tail.2) = result := by
  unfold Argument.evaluated
  rw [execAll_before ran]
  constructor
  · intro evaluates
    obtain ⟨out,reached,evaluates⟩ := bind_ok evaluates
    obtain ⟨x,ready,reached⟩ := bind_ok reached
    obtain ⟨vars,rfl,kept⟩ := (next x).kept reached
    have still : vars.lookup r.slot = some x := (kept r.slot outside).trans (placed x).1
    rw [List.map_cons,Expr.valuesOfAll_cons,takes.value still] at evaluates
    obtain ⟨first,taken,evaluates⟩ := bind_ok evaluates
    obtain ⟨w,finished,rfl⟩ := map_ok_iff.mp taken
    obtain ⟨tail,computed,equal⟩ := map_ok_iff.mp evaluates
    refine ⟨x,w,tail,ready,finished,?_,equal⟩
    rw [reached]
    exact computed
  · rintro ⟨x,w,tail,ready,finished,evaluates,rfl⟩
    obtain ⟨out,reached,computed⟩ := bind_ok evaluates
    obtain ⟨vars,rfl,kept⟩ := (next x).kept reached
    have still : vars.lookup r.slot = some x := (kept r.slot outside).trans (placed x).1
    have taken := takes.value still s.calls
    rw [finished] at taken
    dsimp only at computed
    simp only [ready,Except.bind,reached,List.map_cons,Expr.valuesOfAll_cons,taken,Except.map,computed]

end Placed

/-- One argument is made ready after the other. -/
theorem hands_cons (takes : a.Takes host r)
    (delivers : ∀ {v w}, p.Delivers param v w ↔ ∃ x, r.ready v = .ok x ∧ r.finish x = .ok w)
    (bound : s.vars.lookup a.param.name = some v) (clear : Argument.Clear (a :: rest) s.vars)
    (touches : r.slot ∈ Argument.touched [a]) (last : r.slot = a.param.name ∨ rest = [])
    (others : ∀ vars : Vars, Vars.Keeps [r.slot] s.vars vars → r.slot ∉ Argument.touched rest →
      Argument.Clear rest vars → p.Hands host params rest ⟨vars,s.calls⟩ given) :
    p.Hands host (param :: params) (a :: rest) s (v :: given) := by
  obtain ⟨place,placed,ran⟩ := takes.before bound clear.not_bound.1 clear.free_parts.1
  have outside := clear.outside last
  have next (x : Value) : p.Hands host params rest ⟨place x,s.calls⟩ given :=
    others (place x) (placed x).2 outside (clear.tail bound last (placed x).2)
  refine ⟨kept_cons placed ran next touches,fun result => ?_⟩
  rw [evaluated_cons_iff takes placed ran next outside]
  constructor
  · rintro ⟨x,w,tail,ready,finished,evaluates,rfl⟩
    obtain ⟨same,delivered⟩ := ((next x).passed tail).mp evaluates
    exact ⟨same,.cons (delivers.mpr ⟨x,ready,finished⟩) delivered⟩
  · obtain ⟨passed,calls⟩ := result
    rintro ⟨rfl,delivered⟩
    cases delivered with
    | @cons _ _ _ w _ tail first delivered =>
      obtain ⟨x,ready,finished⟩ := delivers.mp first
      exact ⟨x,w,(tail,s.calls),ready,finished,((next x).passed _).mpr ⟨rfl,delivered⟩,rfl⟩

end Cons

theorem variadicPassage_slot (p : Plan) (name : String) (elem : TypeExpr) :
    (p.passage name (elem,true)).slot ∈ Argument.touched [p.variadicArgument name elem] := by
  cases found : p.entryAtLeast? .soft elem with
  | none => simp [Argument.touched,passage,variadicArgument,found]
  | some e => simp [Argument.touched,passage,variadicArgument,found]

theorem hands_of_arguments (distinct : p.catalog.keys.Nodup) {e : Entry} {m : Selection} {params : List Param}
    {index : Nat} {args : List Argument} (ok : p.arguments e m index params = .ok args) {s : State}
    {given : List Value} (bound : List.Forall₂ (fun a v => s.vars.lookup a.param.name = some v) args given)
    (clear : Argument.Clear args s.vars) :
    p.Hands host (Signature.declared m.signature.variadic params) args s given := by
  induction params generalizing index args s given with
  | nil =>
    cases ok
    cases bound
    exact hands_nil s
  | cons param rest ih =>
    unfold arguments at ok
    unfold Signature.declared
    cases last : m.signature.variadic && rest.isEmpty with
    | true =>
      -- Only the last argument can be variadic, so none comes after the one that has a slot of its own.
      obtain rfl : rest = [] := by simpa using (Bool.and_eq_true_iff.mp last).2
      simp only [last,if_true] at ok
      split at ok
      next elem type =>
        cases ok
        obtain ⟨v,_,known,none,rfl⟩ := List.forall₂_cons_left_iff.mp bound
        obtain rfl := List.forall₂_nil_left_iff.mp none
        rw [type]
        exact hands_cons (variadicArgument_takes p _ elem) (delivers_iff distinct _ _) known clear
          (variadicPassage_slot p _ elem) (.inr rfl) fun vars _ _ _ => hands_nil _
      next => cases ok
    | false =>
      simp only [last,Bool.false_eq_true,if_false] at ok
      split at ok
      next => cases ok
      next others more =>
        cases ok
        obtain ⟨v,given,known,later,rfl⟩ := List.forall₂_cons_left_iff.mp bound
        have slot := passage_slot p (Naming.paramName param.name index) param.type
        have name : (p.argument (Naming.paramName param.name index) param.type).param.name =
          Naming.paramName param.name index := by rw [argument_param]
        refine hands_cons (argument_takes p _ param.type) (delivers_iff distinct _ _) known clear
          ?_ (.inl (slot.trans name.symm)) fun vars kept outside clear => ih more ?_ clear
        · simp [Argument.touched,slot,name]
        · rw [List.forall₂_iff_zip] at later ⊢
          refine ⟨later.1,fun member => ?_⟩
          rw [kept _ ?_]
          · exact later.2 member
          · rw [List.mem_singleton]
            intro same
            apply outside
            rw [← same]
            exact List.mem_append_left _ (List.mem_map_of_mem (List.of_mem_zip member).1)

end Hands
end Plan
end ProxyGen
