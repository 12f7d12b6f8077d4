import ProxyGen.Proofs.Units

/-! Why generation fails. A method is forwarded unless it is variadic with a last parameter that is no slice, and
methods are forwarded for the entries that need a proxy and own them; files are made of all groups or of none, and
then their names have to differ. -/
namespace ProxyGen

theorem mapM_error {ε α β : Type} {f : α → Except ε β} {l : List α} {e : ε} (failed : l.mapM f = .error e) :
    ∃ x ∈ l, f x = .error e := by
  induction l with
  | nil => cases failed
  | cons x rest ih =>
    rw [List.mapM_cons] at failed
    cases first : f x with
    | error e' =>
      rw [first] at failed
      cases failed
      exact ⟨x,List.mem_cons_self,first⟩
    | ok y =>
      rw [first] at failed
      cases others : rest.mapM f with
      | error e' =>
        rw [others] at failed
        cases failed
        obtain ⟨x',member,failed⟩ := ih others
        exact ⟨x',List.mem_cons_of_mem _ member,failed⟩
      | ok ys =>
        rw [others] at failed
        cases failed

/-- A list fails with one of its elements. -/
theorem mapM_fails {ε α β : Type} {f : α → Except ε β} {l : List α} {x : α} {e : ε} (member : x ∈ l)
    (failed : f x = .error e) : ∃ e', l.mapM f = .error e' := by
  cases result : l.mapM f with
  | error e' => exact ⟨e',rfl⟩
  | ok ys =>
    obtain ⟨y,succeeded⟩ := (mapM_ok result).1 x member
    rw [failed] at succeeded
    cases succeeded

theorem bind_pure_error_iff {ε α β : Type} {x : Except ε α} {f : α → β} {e : ε} :
    (x >>= fun a => pure (f a)) = .error e ↔ x = .error e := by
  cases x with
  | error e' => constructor <;> intro failed <;> cases failed <;> rfl
  | ok a => exact iff_of_false nofun nofun

namespace Plan
variable {p : Plan} {e : Entry} {proxy : String} {m : Selection} {err : Error}

theorem arguments_error_iff {params : List Param} {index : Nat} :
    p.arguments e m index params = .error err ↔ m.signature.variadic = true ∧
      ∃ last, params.getLast? = some last ∧ (∀ elem, last.type ≠ .slice elem) ∧
        err = .notForwardable e.key m.name (Naming.paramName last.name (index + (params.length - 1))) last.type := by
  induction params generalizing index with
  | nil =>
    rw [arguments]
    simp
  | cons param rest ih =>
    rw [arguments]
    cases rest with
    | nil =>
      cases variadic : m.signature.variadic with
      | false => simp [arguments]
      | true =>
        simp only [List.isEmpty_nil,Bool.and_self,if_true,List.getLast?_singleton,true_and,Option.some.injEq,
          List.length_singleton,Nat.sub_self,Nat.add_zero]
        split
        next elem slice => simp [slice]
        next t other =>
          constructor
          · intro failed
            cases failed
            exact ⟨param,rfl,fun elem => other elem,rfl⟩
          · intro unspreadable
            obtain ⟨last,rfl,_,rfl⟩ := unspreadable
            rfl
    | cons next rest =>
      have place : index + ((param :: next :: rest).length - 1) = index + 1 + ((next :: rest).length - 1) := by
        simp only [List.length_cons]
        omega
      rw [if_neg (by simp),List.getLast?_cons_cons,place,← ih]
      cases p.arguments e m (index + 1) (next :: rest) <;> simp

/-- The method is variadic, and its last parameter is no slice that could be spread. -/
def Unspreadable (m : Selection) (last : Param) : Prop :=
  m.signature.variadic = true ∧ m.signature.params.getLast? = some last ∧ ∀ elem, last.type ≠ .slice elem

/-- What is said of a method that cannot be forwarded. -/
def notForwardable (e : Entry) (m : Selection) (last : Param) : Error :=
  .notForwardable e.key m.name (Naming.paramName last.name (m.signature.params.length - 1)) last.type

theorem forward_error_iff :
    p.forward e proxy m = .error err ↔ ∃ last, Unspreadable m last ∧ err = notForwardable e m last := by
  have refused : p.forward e proxy m = .error err ↔ p.arguments e m 0 m.signature.params = .error err :=
    bind_pure_error_iff
  rw [refused,arguments_error_iff,Nat.zero_add]
  unfold Unspreadable notForwardable
  constructor
  · intro failed
    obtain ⟨variadic,last,found,other,rfl⟩ := failed
    exact ⟨last,⟨variadic,found,other⟩,rfl⟩
  · intro failed
    obtain ⟨last,⟨variadic,found,other⟩,rfl⟩ := failed
    exact ⟨variadic,last,found,other,rfl⟩

theorem variantDecls_error_iff : p.variantDecls proxy e = .error err ↔
    ((p.ownedMethods e).mapM fun m => p.forward e proxy m) = .error err :=
  bind_pure_error_iff

theorem unit_error_iff {g : Group} : p.unit g = .error err ↔ (p.catalog.wrappedMembers g).mapM
    (p.variantDecls (Naming.proxyName p.types g.descriptor.type)) = .error err :=
  bind_pure_error_iff

/-- An entry that needs a proxy owns a method that cannot be forwarded. -/
structure Stuck (p : Plan) (e : Entry) (m : Selection) (last : Param) : Prop where
  member : e ∈ p.catalog.entries
  wrapped : e.status ≠ .none
  listed : m ∈ e.methods
  owned : p.catalog.owns e m.name = true
  unspreadable : Unspreadable m last

/-- The units cannot be made for a method that an entry is stuck with. -/
theorem stuck_of_error (good : p.catalog.WellFormed p.types)
    (failed : p.catalog.wrappedGroups.mapM p.unit = .error err) :
    ∃ e m last, p.Stuck e m last ∧ err = notForwardable e m last := by
  obtain ⟨g,needed,failed⟩ := mapM_error failed
  obtain ⟨e,inside,failed⟩ := mapM_error (unit_error_iff.mp failed)
  obtain ⟨m,owned,failed⟩ := mapM_error (variantDecls_error_iff.mp failed)
  obtain ⟨last,unspreadable,named⟩ := forward_error_iff.mp failed
  obtain ⟨listed,owns⟩ := List.mem_filter.mp owned
  have group := ((Catalog.mem_wrappedGroups_iff good).mp needed).1
  obtain ⟨member,_,wrapped⟩ := (Catalog.mem_wrappedMembers_iff good group).mp inside
  exact ⟨e,m,last,⟨member,wrapped,listed,owns,unspreadable⟩,named⟩

theorem Stuck.fails {last : Param} (stuck : p.Stuck e m last) (good : p.catalog.WellFormed p.types) :
    ∃ err, p.catalog.wrappedGroups.mapM p.unit = .error err := by
  obtain ⟨g,_,group,named⟩ := good.group_of_mem stuck.member
  have inside := (Catalog.mem_wrappedMembers_iff good group).mpr ⟨stuck.member,named.symm,stuck.wrapped⟩
  have needed := (Catalog.mem_wrappedGroups_iff good).mpr
    ⟨group,e,stuck.member,(good.mem_members_iff group stuck.member).mpr named.symm,stuck.wrapped⟩
  have owned : m ∈ p.ownedMethods e := List.mem_filter.mpr ⟨stuck.listed,stuck.owned⟩
  have refused : p.forward e (Naming.proxyName p.types g.descriptor.type) m = .error (notForwardable e m last) :=
    forward_error_iff.mpr ⟨last,stuck.unspreadable,rfl⟩
  obtain ⟨_,failed⟩ := mapM_fails owned refused
  obtain ⟨_,failed⟩ := mapM_fails inside (variantDecls_error_iff.mpr failed)
  exact mapM_fails needed (unit_error_iff.mpr failed)

/-- The names of all units taken together: each unit has a file name and the name of its proxy. -/
def unitNames (p : Plan) : List String := (p.catalog.wrappedGroups.flatMap p.names).map Prod.fst

/-- A name that is refused occurs twice. -/
theorem collision?_some {before names : List (String × String)} (collides : collision? before names = some err) :
    ∃ name first second, err = .nameCollision name first second ∧ (name,second) ∈ names ∧
      ((name,first) ∈ before ∨ (name,first) ∈ names) := by
  induction names generalizing before with
  | nil => cases collides
  | cons taken rest ih =>
    obtain ⟨name,root⟩ := taken
    rw [collision?] at collides
    split at collides
    next first held =>
      cases collides
      obtain ⟨earlier,later,rfl,_⟩ := List.lookup_eq_some_iff.mp held
      exact ⟨name,first,root,rfl,List.mem_cons_self,.inl (by simp)⟩
    next =>
      obtain ⟨name',first,second,equal,inside,held⟩ := ih collides
      refine ⟨name',first,second,equal,List.mem_cons_of_mem _ inside,?_⟩
      rcases held with held | held
      · rcases List.mem_cons.mp held with new | held
        · exact .inr (new ▸ List.mem_cons_self)
        · exact .inl held
      · exact .inr (List.mem_cons_of_mem _ held)

/-- Where all units can be made, their names decide. -/
theorem units_of_made {made : List OutputUnit} (each : p.catalog.wrappedGroups.mapM p.unit = .ok made) :
    (p.unitNames.Nodup → ∃ units, p.units = .ok units) ∧
      (¬ p.unitNames.Nodup → ∃ name first second, p.units = .error (.nameCollision name first second) ∧
        (name,first) ∈ p.catalog.wrappedGroups.flatMap p.names ∧
          (name,second) ∈ p.catalog.wrappedGroups.flatMap p.names) := by
  have perm : (takenNames (Text.sortBy OutputUnit.fileName made)).Perm (p.catalog.wrappedGroups.flatMap p.names) := by
    rw [← takenNames_eq (mapM_forall₂ each)]
    exact (Text.sortBy_perm OutputUnit.fileName made).flatMap_right _
  have distinct : p.unitNames.Nodup ↔ collision? [] (takenNames (Text.sortBy OutputUnit.fileName made)) = none := by
    rw [collision?_eq_none_iff,unitNames,(perm.map Prod.fst).nodup_iff]
    simp
  unfold units
  rw [each,distinct]
  cases collides : collision? [] (takenNames (Text.sortBy OutputUnit.fileName made)) with
  | none =>
    refine ⟨fun _ => ⟨Text.sortBy OutputUnit.fileName made,?_⟩,fun taken => absurd rfl taken⟩
    simp only [bind,Except.bind,collides]
    rfl
  | some err =>
    refine ⟨nofun,fun _ => ?_⟩
    obtain ⟨name,first,second,rfl,inside,held⟩ := collision?_some collides
    refine ⟨name,first,second,?_,perm.mem_iff.mp (held.resolve_left List.not_mem_nil),perm.mem_iff.mp inside⟩
    simp only [bind,Except.bind,collides]
    rfl

/-- Generation ends in one of three ways, and an entry that is stuck with a method comes first. -/
theorem units_cases (good : p.catalog.WellFormed p.types) :
    (∃ e m last, p.Stuck e m last ∧ p.units = .error (notForwardable e m last)) ∨
      (¬ ∃ e m last, p.Stuck e m last) ∧ (¬ p.unitNames.Nodup ∧ (∃ name first second,
        p.units = .error (.nameCollision name first second) ∧
          (name,first) ∈ p.catalog.wrappedGroups.flatMap p.names ∧
            (name,second) ∈ p.catalog.wrappedGroups.flatMap p.names) ∨
        p.unitNames.Nodup ∧ ∃ units, p.units = .ok units) := by
  cases made : p.catalog.wrappedGroups.mapM p.unit with
  | error err =>
    obtain ⟨e,m,last,stuck,named⟩ := stuck_of_error good made
    refine .inl ⟨e,m,last,stuck,?_⟩
    unfold units
    rw [made,named]
    rfl
  | ok units =>
    have free : ¬ ∃ e m last, p.Stuck e m last := by
      intro stuck
      obtain ⟨e,m,last,stuck⟩ := stuck
      obtain ⟨err,failed⟩ := stuck.fails good
      rw [made] at failed
      cases failed
    obtain ⟨succeeds,collides⟩ := units_of_made made
    by_cases distinct : p.unitNames.Nodup
    · exact .inr ⟨free,.inr ⟨distinct,succeeds distinct⟩⟩
    · exact .inr ⟨free,.inl ⟨distinct,collides distinct⟩⟩

/-- Generation is refused for a method exactly when an entry that needs a proxy owns one that cannot be forwarded, and
otherwise for a name exactly when a name of the units occurs twice; the error says which, and there is no other. -/
theorem units_outcome (grown : Catalog.Grown p.types p.catalog) :
    ((∃ owner method param t, p.units = .error (.notForwardable owner method param t)) ↔
      ∃ e m last, p.Stuck e m last) ∧
    ((∃ name first second, p.units = .error (.nameCollision name first second)) ↔
      (¬ ∃ e m last, p.Stuck e m last) ∧ ¬ p.unitNames.Nodup) ∧
    ((∃ units, p.units = .ok units) ↔ (¬ ∃ e m last, p.Stuck e m last) ∧ p.unitNames.Nodup) ∧
    ∀ err, p.units = .error err → (∃ e m last, p.Stuck e m last ∧ err = notForwardable e m last) ∨
      ∃ name first second, err = .nameCollision name first second ∧
        (name,first) ∈ p.catalog.wrappedGroups.flatMap p.names ∧
          (name,second) ∈ p.catalog.wrappedGroups.flatMap p.names := by
  rcases units_cases grown.wellFormed with
    ⟨e,m,last,stuck,ended⟩ | ⟨free,⟨twice,name,first,second,ended,held⟩ | ⟨once,units,ended⟩⟩
  · have exists' : ∃ e m last, p.Stuck e m last := ⟨e,m,last,stuck⟩
    rw [ended]
    refine ⟨iff_of_true ⟨_,_,_,_,rfl⟩ exists',iff_of_false nofun fun free => free.1 exists',
      iff_of_false nofun fun free => free.1 exists',?_⟩
    intro err same
    cases same
    exact .inl ⟨e,m,last,stuck,rfl⟩
  · rw [ended]
    refine ⟨iff_of_false nofun free,iff_of_true ⟨name,first,second,rfl⟩ ⟨free,twice⟩,
      iff_of_false nofun fun distinct => twice distinct.2,?_⟩
    intro err same
    cases same
    exact .inr ⟨name,first,second,rfl,held⟩
  · rw [ended]
    exact ⟨iff_of_false nofun free,iff_of_false nofun fun twice => twice.2 once,
      iff_of_true ⟨units,rfl⟩ ⟨free,once⟩,nofun⟩

end Plan

namespace Logger

def logger : NamedType := ⟨"p","Logger"⟩

def close : Signature := ⟨[],[⟨none,.error⟩],false⟩

/-- A variadic signature whose last parameter is no slice. -/
def log : Signature := ⟨[⟨none,.basic "string"⟩],[],true⟩

def types : Universe :=
  ⟨[⟨"p","p",[⟨"Logger",.struct,.struct,[],[⟨"Close",true,none,close⟩,⟨"Log",false,none,log⟩]⟩]⟩]⟩

def refEntry : Entry := ⟨⟨"*p.Logger",.struct,1,.pointer (.named logger)⟩,"p.Logger",.hard,
  [⟨"Close",none,close,true⟩,⟨"Log",none,log,true⟩]⟩

def entry (s : Status) : Entry := ⟨⟨"p.Logger",.struct,0,.named logger⟩,"p.Logger",s,[⟨"Log",none,log,false⟩]⟩

def group : Group := ⟨⟨"p.Logger",.struct,0,.named logger⟩,
  [("Log",⟨"p.Logger",true⟩),("Close",⟨"*p.Logger",false⟩)],["*p.Logger","p.Logger"]⟩

/-- The logger, which can close by reference and log by value, once its value has been raised to a status. -/
def catalog (s : Status) : Catalog := ⟨[refEntry,entry s],[group],[]⟩

def plan (s : Status) : Plan := ⟨catalog s,types,⟨"out","","Transform"⟩⟩

open Evaluation in
theorem walk_types : Analysis.walk types (.named logger) [] = .ok ⟨catalog .none,[],["p.Logger","*p.Logger"]⟩ := by
  have underlying : types.underlying logger = .ok .struct := by decide +kernel
  have methods : types.methodSet (.named logger) = .ok [⟨"Log",none,log,false⟩] ∧
      types.methodSet (.pointer (.named logger)) = .ok [⟨"Close",none,close,true⟩,⟨"Log",none,log,true⟩] := by
    constructor <;> cbv
  have exported : isExported "Close" = true ∧ isExported "Log" = true := by decide +kernel
  have path : logger.path = "p" := rfl
  have key : logger.key = "p.Logger" := by decide +kernel
  simp [path,key,underlying,methods,exported,close,log]
  rfl

theorem run_types : Analysis.run types (.named logger) [] = .ok ⟨catalog .none,2,0⟩ := by
  apply Analysis.run_of_walk walk_types
  cbv

theorem grown : Catalog.Grown types (catalog .none) := .of_run run_types

theorem grown_raised : Catalog.Grown types (catalog .hard) := by
  have raised : (catalog .none).raise "p.Logger" .hard = catalog .hard := by decide
  rw [← raised]
  exact grown.tail (.raise "p.Logger" .hard)

theorem stuck : (plan .hard).Stuck (entry .hard) ⟨"Log",none,log,false⟩ ⟨none,.basic "string"⟩ where
  member := by decide
  wrapped := by decide
  listed := by decide
  owned := by decide
  unspreadable := ⟨rfl,rfl,nofun⟩

/-- While the logger needs no proxy, nothing is stuck: the reference to it lists the same method and does not own
it. -/
theorem not_stuck : ¬ ∃ e m last, (plan .none).Stuck e m last := by
  intro stuck
  obtain ⟨e,m,last,stuck⟩ := stuck
  have variadic := stuck.unspreadable.1
  have entries : ∀ e ∈ (plan .none).catalog.entries, e.status ≠ .none → ∀ m ∈ e.methods,
      (plan .none).catalog.owns e m.name = true → m.signature.variadic = false := by decide
  rw [entries e stuck.member stuck.wrapped m stuck.listed stuck.owned] at variadic
  cases variadic

theorem unitNames_eq (s : Status) : (plan s).unitNames = ["p_logger.go","PLogger"] := by
  have proxy : Naming.proxyName types (.named logger) = "PLogger" := by decide +kernel
  have file : Naming.fileName types (.named logger) = "p_logger.go" := by decide +kernel
  have groups : (plan s).catalog.wrappedGroups = [group] := by cases s <;> decide +kernel
  rw [Plan.unitNames,groups]
  simp [Plan.names,plan,group,proxy,file]

end Logger

namespace Plan

/-- The logger is generated as long as its value needs no proxy, and refused from then on. -/
theorem logger_refused : Catalog.Grown Logger.types (Logger.catalog .none) ∧
    Catalog.Grown Logger.types (Logger.catalog .hard) ∧
    Logger.refEntry ∈ (Logger.plan .none).catalog.entries ∧ Logger.refEntry.status = .hard ∧
    (∃ m ∈ Logger.refEntry.methods, ∃ last, Unspreadable m last) ∧
    (∃ units, (Logger.plan .none).units = .ok units) ∧
    (∃ owner method param t, (Logger.plan .hard).units = .error (.notForwardable owner method param t)) := by
  refine ⟨Logger.grown,Logger.grown_raised,by decide,rfl,?_,?_,?_⟩
  · exact ⟨⟨"Log",none,Logger.log,true⟩,by decide,⟨none,.basic "string"⟩,rfl,rfl,nofun⟩
  · obtain ⟨_,_,made,_⟩ := units_outcome (p := Logger.plan .none) Logger.grown
    refine made.mpr ⟨Logger.not_stuck,?_⟩
    rw [Logger.unitNames_eq]
    decide
  · obtain ⟨refused,_⟩ := units_outcome (p := Logger.plan .hard) Logger.grown_raised
    exact refused.mpr ⟨_,_,_,Logger.stuck⟩

end Plan
end ProxyGen
