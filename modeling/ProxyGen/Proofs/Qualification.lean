import ProxyGen.Proofs.Aliases
import ProxyGen.Proofs.Signatures
import ProxyGen.Proofs.TypeTexts

/-! The imports of generated files. All that is written as a type in a generated declaration is a type as it is, the
type of the transformer or a proxy; so names of packages stand in it by the aliases that the file imports them under,
and a file imports nothing else. -/
namespace ProxyGen

namespace Code

/-- How a type is written where packages have aliases: a named type goes by the alias of its path, and all else is
written as it is. -/
inductive Imports.Spells (i : Imports) : TypeExpr → String → Prop
  | error : Spells i .error "error"
  | basic (text : String) : Spells i (.basic text) text
  | named {n : NamedType} {shortName : String} (held : i.alias? n.path = some shortName) :
      Spells i (.named n) (shortName ++ "." ++ n.name)
  | pointer {t : TypeExpr} {s : String} (elem : Spells i t s) : Spells i (.pointer t) ("*" ++ s)
  | slice {t : TypeExpr} {s : String} (elem : Spells i t s) : Spells i (.slice t) ("[]" ++ s)
  | array (n : Nat) {t : TypeExpr} {s : String} (elem : Spells i t s) :
      Spells i (.array n t) ("[" ++ toString n ++ "]" ++ s)
  | map {k v : TypeExpr} {r s : String} (key : Spells i k r) (value : Spells i v s) :
      Spells i (.map k v) ("map[" ++ r ++ "]" ++ s)
  | chan (d : ChanDir) {t : TypeExpr} {s : String} (elem : Spells i t s) : Spells i (.chan d t) (d.text ++ s)
  | struct : Spells i .struct "struct\x7b\x7d"
  | interface : Spells i .interface "interface\x7b\x7d"

/-- The alias is recorded by which a name of the package is qualified. -/
def Imports.Holds (i : Imports) (use : String × String) : Prop :=
  i.alias? use.1 = some (i.qualifier use.1 use.2)

theorem TypeRef.spells_ofType {u : Universe} {i : Imports} {t : TypeExpr}
    (holds : ∀ use ∈ (ofType u t).uses, i.Holds use) : i.Spells t ((ofType u t).text i.qualifier) := by
  induction t with
  | error => exact .error
  | basic text => exact .basic text
  | named n => exact .named (holds _ (List.mem_singleton.mpr rfl))
  | pointer t ih => exact .pointer (ih holds)
  | slice t ih => exact .slice (ih holds)
  | array n t ih => exact .array n (ih holds)
  | map k v key value =>
    obtain ⟨first,second⟩ := List.forall_mem_append.mp holds
    exact .map (key first) (value second)
  | chan d t ih => exact .chan d (ih holds)
  | struct => exact .struct
  | interface => exact .interface

/-- A path that is used comes with its alias in front of a name. -/
theorem TypeRef.occurs_qualifier {q : Qualifier} {t : TypeRef} {use : String × String} (used : use ∈ t.uses) :
    Occurs (q use.1 use.2 ++ ".") (t.text q) := by
  induction t with
  | name text => cases used
  | qualified path package name =>
    rw [List.mem_singleton.mp used]
    exact (Occurs.refl _).append_right _
  | pointer t ih | slice t ih | array n t ih | chan d t ih => exact (ih used).append_left _
  | map k v key value =>
    rcases List.mem_append.mp used with first | second
    · exact (((key first).append_left _).append_right _).append_right _
    · exact (value second).append_left _

end Code

namespace Plan
open Code
variable {p : Plan} {t : TypeRef}

/-- What is written as a type in generated code: a type as it is, the type of the transformer, or a proxy below any
number of references. -/
inductive Writes (p : Plan) : TypeRef → Prop
  | type (t : TypeExpr) : Writes p (.ofType p.types t)
  | transformer : Writes p p.transformer
  | proxy (n : Nat) (root : TypeExpr) : Writes p (.pointers n (.name (Naming.proxyName p.types root)))

/-- The text of what is written as a type, where packages have aliases. -/
inductive Reads (p : Plan) (i : Imports) : TypeRef → String → Prop
  | type {t : TypeExpr} {s : String} (spelled : i.Spells t s) : Reads p i (.ofType p.types t) s
  | transformer {shortName : String} (away : p.target.transformerPath ≠ "")
      (held : i.alias? p.target.transformerPath = some shortName) :
      Reads p i p.transformer (shortName ++ "." ++ p.target.transformerType)
  | home (here : p.target.transformerPath = "") : Reads p i p.transformer p.target.transformerType
  | proxy (n : Nat) (root : TypeExpr) : Reads p i (.pointers n (.name (Naming.proxyName p.types root)))
      (String.join (List.replicate n "*") ++ Naming.proxyName p.types root)

theorem Writes.reads {i : Imports} (writes : p.Writes t) (holds : ∀ use ∈ t.uses, i.Holds use) :
    p.Reads i t (t.text i.qualifier) := by
  cases writes with
  | type t => exact .type (TypeRef.spells_ofType holds)
  | transformer =>
    by_cases here : p.target.transformerPath = ""
    · have written : p.transformer.text i.qualifier = p.target.transformerType := by
        simp [Plan.transformer,here,TypeRef.text]
      rw [written]
      exact .home here
    · have away : p.transformer = .qualified p.target.transformerPath (lastElement p.target.transformerPath)
          p.target.transformerType := by simp [Plan.transformer,here]
      rw [away] at holds
      have written : p.transformer.text i.qualifier =
          i.qualifier p.target.transformerPath (lastElement p.target.transformerPath) ++ "." ++
            p.target.transformerType := by rw [away,TypeRef.text]
      rw [written]
      exact .transformer here (holds _ (List.mem_singleton.mpr rfl))
  | proxy n root =>
    rw [TypeRef.text_pointers_eq]
    exact .proxy n root

theorem writes_wrappedType (t : TypeExpr) : p.Writes (p.wrappedType t) := by
  unfold wrappedType
  split
  next e _ => exact .proxy _ (p.rootType e)
  next => exact .type t

/-- Statements whose types are all among those that are written. -/
structure Tidy (p : Plan) (body : List Stmt) : Prop where
  flat : Stmt.FlatAll body
  writes : ∀ t ∈ Stmt.typesOfAll body, p.Writes t

theorem tidy_iff {body : List Stmt} : p.Tidy body ↔ ∀ s ∈ body, s.Flat ∧ ∀ t ∈ s.types, p.Writes t := by
  constructor
  · intro tidy s among
    refine ⟨Stmt.flatAll_iff.mp tidy.flat s among,?_⟩
    intro t member
    exact tidy.writes t (Stmt.mem_typesOfAll.mpr ⟨s,among,member⟩)
  · intro each
    refine ⟨Stmt.flatAll_iff.mpr fun s among => (each s among).1,?_⟩
    intro t member
    obtain ⟨s,among,member⟩ := Stmt.mem_typesOfAll.mp member
    exact (each s among).2 t member

theorem Tidy.append {first rest : List Stmt} (tidy : p.Tidy first) (tidy' : p.Tidy rest) : p.Tidy (first ++ rest) :=
  tidy_iff.mpr (List.forall_mem_append.mpr ⟨tidy_iff.mp tidy,tidy_iff.mp tidy'⟩)

theorem types_derefs (n : Nat) (e : Expr) : (derefs n e).types = e.types := by
  induction n generalizing e with
  | zero => rfl
  | succ n ih => rw [derefs,ih,Expr.types]

theorem types_nilTests (n : Nat) {cond e : Expr} (test : cond.types = []) (value : e.types = []) :
    (nilTests n cond e).types = [] := by
  induction n generalizing cond e with
  | zero => exact test
  | succ n ih =>
    apply ih
    · simp [Expr.or,Expr.isNil,test,value]
    · simp [value]

theorem types_nilGuard (n : Nat) : Stmt.typesOfAll (nilGuard n) = [] := by
  cases n with
  | zero => rfl
  | succ n =>
    have tests : (nilTests n (Expr.ident innerName).isNil (.ident innerName)).types = [] := by
      apply types_nilTests
      · simp [Expr.isNil]
      · simp
    simp [nilGuard,tests]

theorem types_referTo (n level : Nat) : Stmt.typesOfAll (referTo n level) = [] := by
  induction n generalizing level with
  | zero => simp [referTo]
  | succ n ih => simp [referTo,ih]

theorem types_returnProxy (literal : Expr) (n : Nat) : Stmt.typesOfAll (returnProxy literal n) = literal.types := by
  rcases n with _ | _ | n
  · simp [returnProxy]
  · simp [returnProxy]
  · simp [returnProxy,types_referTo]

theorem types_constructorBody (d : Descriptor) (proxy : String) :
    Stmt.typesOfAll (constructorBody d proxy) = [.name proxy] := by
  unfold constructorBody
  dsimp only
  rw [Stmt.typesOfAll_append,types_nilGuard,types_returnProxy]
  simp [types_derefs]

theorem flat_referTo (n level : Nat) : Stmt.FlatAll (referTo n level) := by
  induction n generalizing level with
  | zero => simp [referTo]
  | succ n ih => simp [referTo,ih]

theorem flat_returnProxy (literal : Expr) (n : Nat) : Stmt.FlatAll (returnProxy literal n) := by
  rcases n with _ | _ | n
  · simp [returnProxy]
  · simp [returnProxy]
  · simp [returnProxy,flat_referTo]

theorem flat_constructorBody (d : Descriptor) (proxy : String) : Stmt.FlatAll (constructorBody d proxy) := by
  apply Stmt.flatAll_append.mpr
  constructor
  · cases layers d <;> simp [nilGuard]
  · exact flat_returnProxy _ _

theorem tidy_constructorBody (d : Descriptor) (root : TypeExpr) :
    p.Tidy (constructorBody d (Naming.proxyName p.types root)) := by
  refine ⟨flat_constructorBody d _,?_⟩
  rw [types_constructorBody,List.forall_mem_singleton]
  exact .proxy 0 root

theorem tidy_takeOut (e : Entry) (holder : String) {value target : Expr} (taken : value.types = [])
    (assigned : target.types = []) : p.Tidy [p.takeOut e holder value target] := by
  have asserted : p.Writes (.pointer (.name (p.proxyName e))) := .proxy 1 (p.rootType e)
  constructor
  · simp [takeOut]
  · simpa [takeOut,taken,assigned] using asserted

theorem types_hardInner {e : Entry} {value : Expr} (taken : value.types = []) : (hardInner e value).types = [] := by
  unfold hardInner
  dsimp only
  split <;> simp [taken]

/-- An argument that is declared and made ready with types that are written; what is passed has none. -/
structure TidyArgument (p : Plan) (a : Argument) : Prop where
  declared : p.Writes a.param.type
  before : p.Tidy a.before
  value : a.value.types = []

theorem tidy_nil : p.Tidy [] := ⟨trivial,nofun⟩

theorem tidy_argument (name : String) (t : TypeExpr) : p.TidyArgument (p.argument name t) := by
  have taken : (Expr.ident name).types = [] := by rw [Expr.types]
  refine ⟨?_,?_,?_⟩
  · rw [argument_param]
    exact writes_wrappedType t
  all_goals
    unfold argument
    dsimp only
    split
  · exact tidy_nil
  · split
    · exact tidy_takeOut _ _ taken taken
    · exact tidy_nil
  · exact taken
  · split
    · exact taken
    · exact types_hardInner taken

theorem tidy_variadicArgument (name : String) (elem : TypeExpr) : p.TidyArgument (p.variadicArgument name elem) := by
  refine ⟨?_,?_,?_⟩
  · rw [variadicArgument_param]
    exact writes_wrappedType elem
  all_goals
    unfold variadicArgument
    dsimp only
    split
  · exact tidy_nil
  next e _ =>
    have copied : p.Writes (.slice (.ofType p.types elem)) := .type (.slice elem)
    have item : (Expr.ident "elem").types = [] := by rw [Expr.types]
    have slot : ((Expr.ident (name ++ "Inner")).index (.ident "idx")).types = [] := by simp
    have made : p.Tidy [.define [name ++ "Inner"]
        (.make (.slice (.ofType p.types elem)) (.call (.ident "len") [.ident name] false))] := by
      constructor
      · simp
      · simpa using copied
    have loop {body : List Stmt} (tidy : p.Tidy body) : p.Tidy [.range "idx" "elem" (.ident name) body] := by
      constructor
      · simpa using tidy.flat
      · simpa using tidy.writes
    have assigned {value : Expr} (plain : value.types = []) :
        p.Tidy [.assign ((Expr.ident (name ++ "Inner")).index (.ident "idx")) value] := by
      constructor <;> simp [plain]
    refine made.append (loop ?_)
    split
    · exact (assigned item).append (tidy_takeOut _ _ item slot)
    · exact assigned (types_hardInner item)
  all_goals rw [Expr.types]

theorem tidy_arguments {e : Entry} {m : Selection} {params : List Param} {index : Nat} {args : List Argument}
    (ok : p.arguments e m index params = .ok args) : ∀ a ∈ args, p.TidyArgument a := by
  induction params generalizing index args with
  | nil =>
    cases ok
    exact nofun
  | cons param rest ih =>
    unfold arguments at ok
    dsimp only at ok
    split at ok
    next =>
      split at ok
      next elem _ =>
        cases ok
        rw [List.forall_mem_singleton]
        exact tidy_variadicArgument _ elem
      next => cases ok
    next =>
      split at ok
      next => cases ok
      next others more =>
        cases ok
        rw [List.forall_mem_cons]
        exact ⟨tidy_argument _ param.type,ih more⟩

theorem types_passed {e : Entry} {m : Selection} {params : List Param} {index : Nat} {args : List Argument}
    (ok : p.arguments e m index params = .ok args) : Expr.typesOfAll (args.map Argument.value) = [] := by
  apply List.eq_nil_iff_forall_not_mem.mpr
  intro t inside
  obtain ⟨value,member,inside⟩ := Expr.mem_typesOfAll.mp inside
  obtain ⟨a,among,rfl⟩ := List.mem_map.mp member
  rw [(tidy_arguments ok a among).value] at inside
  cases inside

theorem types_returned {transform value : Expr} (transforms : transform.types = []) (taken : value.types = [])
    (t : TypeExpr) : (p.returned transform value t).types = [] := by
  unfold returned
  split
  · simp [transforms,taken]
  · split
    · simp [transforms,taken]
    · exact taken

theorem types_callAndReturn {call transform : Expr} (results : List Param) (calls : call.types = [])
    (transforms : transform.types = []) : Stmt.typesOfAll (p.callAndReturn call transform results) = [] := by
  unfold callAndReturn
  split
  · simp [calls]
  · dsimp only
    rw [Stmt.typesOfAll,Stmt.typesOfAll,Stmt.types,calls,List.nil_append,Stmt.typesOfAll,List.append_nil]
    apply List.eq_nil_iff_forall_not_mem.mpr
    intro t member
    obtain ⟨value,among,inside⟩ := Expr.mem_typesOfAll.mp member
    obtain ⟨⟨name,result⟩,_,rfl⟩ := List.mem_map.mp among
    rw [types_returned transforms (by rw [Expr.types])] at inside
    cases inside

theorem tidy_callAndReturn {call transform : Expr} (results : List Param) (calls : call.types = [])
    (transforms : transform.types = []) : p.Tidy (p.callAndReturn call transform results) := by
  constructor
  · unfold callAndReturn
    split <;> simp
  · rw [types_callAndReturn results calls transforms]
    nofun

/-- A declaration whose types are all among those that are written. -/
structure TidyDecl (p : Plan) (d : Decl) : Prop where
  flat : d.Flat
  writes : ∀ t ∈ d.types, p.Writes t

theorem tidy_func {f : FuncDecl} (receiver : ∀ r ∈ f.receiver, p.Writes r.type)
    (params : ∀ d ∈ f.params, p.Writes d.type) (body : p.Tidy f.body) (results : ∀ t ∈ f.results, p.Writes t) :
    p.TidyDecl (.func f) := by
  refine ⟨body.flat,?_⟩
  unfold Decl.types FuncDecl.types
  rw [List.forall_mem_append,List.forall_mem_append,List.forall_mem_append,List.forall_mem_map,List.forall_mem_map]
  exact ⟨⟨⟨by simpa using receiver,params⟩,body.writes⟩,results⟩

theorem tidy_proxyDecl (proxy : String) (root : TypeExpr) : p.TidyDecl (p.proxyDecl proxy root) := by
  refine ⟨trivial,?_⟩
  unfold proxyDecl Decl.types
  rw [List.forall_mem_map,List.forall_mem_cons,List.forall_mem_singleton]
  exact ⟨.type root,.transformer⟩

theorem tidy_constructor (e : Entry) (root : TypeExpr) :
    p.TidyDecl (.func (p.constructor e (Naming.proxyName p.types root))) := by
  apply tidy_func
  · exact nofun
  · unfold constructor
    rw [List.forall_mem_cons,List.forall_mem_singleton]
    exact ⟨.type _,.transformer⟩
  · exact tidy_constructorBody e.descriptor root
  · unfold constructor
    rw [List.forall_mem_singleton]
    exact writes_wrappedType _

theorem tidy_forward {e : Entry} {root : TypeExpr} {m : Selection} {f : FuncDecl}
    (ok : p.forward e (Naming.proxyName p.types root) m = .ok f) : p.TidyDecl (.func f) := by
  obtain ⟨args,made,ok⟩ := bind_ok ok
  cases ok
  have each := tidy_arguments made
  apply tidy_func
  · intro r received
    cases received
    dsimp only
    split
    · exact .proxy 1 root
    · exact .proxy 0 root
  · rw [List.forall_mem_map]
    exact fun a among => (each a among).declared
  · apply Tidy.append
    · rw [tidy_iff]
      intro s member
      obtain ⟨a,among,before⟩ := List.mem_flatMap.mp member
      exact tidy_iff.mp (each a among).before s before
    · apply tidy_callAndReturn
      · simp [types_passed made]
      · simp
  · rw [List.forall_mem_map]
    exact fun r _ => writes_wrappedType r.type

theorem tidy_unit {g : Group} {unit : OutputUnit} (ok : p.unit g = .ok unit) :
    (∀ d ∈ unit.file.decls, p.TidyDecl d) ∧ unit.file.imports = .ofUses (unit.file.decls.flatMap Decl.uses) := by
  obtain ⟨decls,made,ok⟩ := bind_ok ok
  cases ok
  refine ⟨?_,rfl⟩
  intro d member
  rcases List.mem_cons.mp member with rfl | member
  · exact tidy_proxyDecl _ _
  obtain ⟨ds,among,inside⟩ := List.mem_flatten.mp member
  obtain ⟨e,_,variant⟩ := ((mapM_ok made).2 ds).mp among
  obtain ⟨methods,forwarded,variant⟩ := bind_ok variant
  cases variant
  rcases List.mem_cons.mp inside with rfl | method
  · exact tidy_constructor e _
  · obtain ⟨f,listed,rfl⟩ := List.mem_map.mp method
    obtain ⟨m,_,forwards⟩ := ((mapM_ok forwarded).2 f).mp listed
    exact tidy_forward forwards

/-- The imports of a file fit its declarations: the types in them, which are all that depends on aliases, are read
with the aliases of the file, and no import goes without a type that it is read by. -/
structure Exact (p : Plan) (f : File) : Prop where
  aliases : f.imports.WellFormed
  reads : ∀ d ∈ f.decls, ∀ t ∈ d.types, p.Reads f.imports t (t.text f.imports.qualifier)
  printed : ∀ d ∈ f.decls, ∀ t ∈ d.types, Occurs (t.text f.imports.qualifier) (d.text f.imports.qualifier)
  complete : ∀ d ∈ f.decls, ∀ q, (∀ t ∈ d.types, t.text q = t.text f.imports.qualifier) →
    d.text q = d.text f.imports.qualifier
  used : ∀ path shortName, f.imports.alias? path = some shortName → ∃ d ∈ f.decls, ∃ t ∈ d.types,
    path ∈ t.uses.map Prod.fst ∧ Occurs (shortName ++ ".") (t.text f.imports.qualifier)

theorem imports_exact {units : List OutputUnit} (ok : p.units = .ok units) : ∀ unit ∈ units, p.Exact unit.file := by
  intro unit among
  obtain ⟨g,_,made⟩ := ((mem_units ok).2 unit).mp among
  obtain ⟨tidy,imports⟩ := tidy_unit made
  have holds {d : Decl} (member : d ∈ unit.file.decls) {t : TypeRef} (written : t ∈ d.types) :
      ∀ use ∈ t.uses, unit.file.imports.Holds use := by
    intro use used
    rw [imports]
    apply Imports.alias?_qualifier
    rw [List.mem_flatMap]
    refine ⟨d,member,?_⟩
    rw [Decl.uses_eq,List.mem_flatMap]
    exact ⟨t,written,used⟩
  constructor
  case aliases =>
    rw [imports]
    exact Imports.wellFormed_ofUses _
  case reads =>
    intro d member t written
    exact ((tidy d member).writes t written).reads (holds member written)
  case printed => exact fun d member t written => Decl.occurs_text (tidy d member).flat written
  case complete => exact fun d _ q same => Decl.text_congr same
  case used =>
    intro path shortName held
    have entered := List.mem_map_of_mem (f := Prod.fst) (Imports.mem_of_alias? held)
    rw [imports,Imports.mem_paths_ofUses] at entered
    obtain ⟨use,used,rfl⟩ := List.mem_map.mp entered
    obtain ⟨d,member,used⟩ := List.mem_flatMap.mp used
    rw [Decl.uses_eq] at used
    obtain ⟨t,written,used⟩ := List.mem_flatMap.mp used
    have qualified := holds member written use used
    have same : unit.file.imports.qualifier use.1 use.2 = shortName := Option.some.inj (qualified.symm.trans held)
    refine ⟨d,member,t,written,List.mem_map_of_mem used,?_⟩
    rw [← same]
    exact TypeRef.occurs_qualifier used

end Plan

namespace Sample

/-- The plan with a transformer from a package that has the name of the package of the types. -/
def distant : Plan := ⟨catalog .hard,types,⟨"out","x/p","Transform"⟩⟩

theorem imports_distant {unit : OutputUnit} (made : distant.unit serverGroup = .ok unit) :
    unit.file.imports.alias? "p" = some "p" ∧ unit.file.imports.alias? "x/p" = some "p1" := by
  obtain ⟨decls,_,made⟩ := bind_ok made
  cases made
  have first : (distant.proxyDecl (Naming.proxyName types (.named server)) (.named server)).uses =
      [("p","p"),("x/p","p")] := by decide +kernel
  have entries : (Code.Imports.ofUses [("p","p"),("x/p","p")]).entries = [("p","p"),("x/p","p1")] := by
    decide +kernel
  have kept := Code.Imports.entries_ofUses_append [("p","p"),("x/p","p")] (decls.flatten.flatMap Code.Decl.uses)
  rw [entries,← first] at kept
  have good := Code.Imports.wellFormed_ofUses
    ((distant.proxyDecl (Naming.proxyName types (.named server)) (.named server) :: decls.flatten).flatMap
      Code.Decl.uses)
  exact ⟨good.alias?_iff.mpr (kept.subset (by simp)),good.alias?_iff.mpr (kept.subset (by simp))⟩

end Sample

namespace Plan

/-- Two packages of one name go by different aliases. -/
theorem distant_exact : ∃ units, Sample.distant.units = .ok units ∧
    (∀ unit ∈ units, Sample.distant.Exact unit.file) ∧ ∃ unit ∈ units,
      unit.file.imports.alias? "p" = some "p" ∧ unit.file.imports.alias? "x/p" = some "p1" := by
  obtain ⟨units,planned⟩ := Sample.units_of_target ⟨"out","x/p","Transform"⟩
  have needed : Sample.serverGroup ∈ Sample.distant.catalog.wrappedGroups := by
    have groups : Sample.distant.catalog.wrappedGroups = _ := Sample.wrappedGroups_plan
    rw [groups]
    exact List.mem_cons_of_mem _ List.mem_cons_self
  obtain ⟨total,image⟩ := mem_units (p := Sample.distant) planned
  obtain ⟨unit,made⟩ := total Sample.serverGroup needed
  have among := (image unit).mpr ⟨Sample.serverGroup,needed,made⟩
  exact ⟨units,planned,imports_exact (p := Sample.distant) planned,unit,among,Sample.imports_distant made⟩

end Plan
end ProxyGen
