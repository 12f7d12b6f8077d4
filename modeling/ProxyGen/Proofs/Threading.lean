import ProxyGen.Proofs.AliasHistory
import ProxyGen.Proofs.Qualification
import ProxyGen.Proofs.Spelling

/-! Imports that are recorded while types are written. Writers that hand an import set on, and spell each name with
the alias that the set has for it by then, end with the set that is collected from the finished declarations, and
what they have spelled is what this set spells. -/
namespace ProxyGen

open Code

namespace Code

/-- Writing with the packages imported so far at hand. -/
abbrev Rendering := StateT Imports (Except Error)

/-- The alias of a package, which is imported if it has none. -/
def Rendering.qualifier (path package : String) : Rendering String :=
  modifyGet fun i => ((i.add path package).qualifier path package,i.add path package)

end Code

namespace Plan.Threaded
variable (p : Plan)

def typeText (u : Universe) : TypeExpr → Rendering String
  | .error => return "error"
  | .basic text => return text
  | .named n => return (← Rendering.qualifier n.path (u.packageName n.path)) ++ "." ++ n.name
  | .pointer t => return "*" ++ (← typeText u t)
  | .slice t => return "[]" ++ (← typeText u t)
  | .array n t => return "[" ++ toString n ++ "]" ++ (← typeText u t)
  | .map k v => do
    let key ← typeText u k
    let value ← typeText u v
    return "map[" ++ key ++ "]" ++ value
  | .chan d t => return d.text ++ (← typeText u t)
  | .struct => return "struct\x7b\x7d"
  | .interface => return "interface\x7b\x7d"

def renderType (t : TypeExpr) : Rendering TypeRef := return .name (← typeText p.types t)

def transformer : Rendering TypeRef := do
  let path := p.target.transformerPath
  if path.isEmpty then return .name p.target.transformerType
  else
    let shortName ← Rendering.qualifier path (lastElement path)
    return .name (shortName ++ "." ++ p.target.transformerType)

def wrappedType (t : TypeExpr) : Rendering TypeRef :=
  match p.entryAtLeast? .hard t with
  | some e => return .name (String.join (List.replicate (layers e.descriptor) "*") ++ p.proxyName e)
  | none => renderType p t

def constructor (e : Entry) (proxy : String) : Rendering FuncDecl := do
  let inner ← renderType p e.descriptor.type
  let transformer ← transformer p
  let result ← wrappedType p e.descriptor.type
  return {
    receiver := none
    name := Naming.constructorName p.types e.descriptor
    params := [⟨innerName,inner,false⟩,⟨transformerName,transformer,false⟩]
    results := [result]
    body := constructorBody e.descriptor proxy }

def takeOut (e : Entry) (holder : String) (value target : Expr) : Stmt :=
  .ifThen (some (.define [holder,"ok"] (.typeAssert value (.name ("*" ++ p.proxyName e))))) (.ident "ok")
    [.assign target (.selector (.ident holder) innerName)]

/-- What is done to make a parameter ready, and what is passed on. -/
def unwrapParam (name : String) (t : TypeExpr) : List Stmt × Expr :=
  let value := Expr.ident name
  match p.entryAtLeast? .soft t with
  | none => ([],value)
  | some e =>
    if e.status = .soft then ([takeOut p e (name ++ "Proxy") value value],value) else ([],hardInner e value)

/-- What is done with each element of a variadic parameter. -/
def unwrapElem (e : Entry) (item slot : Expr) : List Stmt :=
  if e.status = .soft then [.assign slot item,takeOut p e "elemProxy" item slot]
  else [.assign slot (hardInner e item)]

def unwrapVariadic (name : String) (elem : TypeExpr) : Rendering (List Stmt × Expr) :=
  let value := Expr.ident name
  match p.entryAtLeast? .soft elem with
  | none => return ([],value)
  | some e => do
    let type ← typeText p.types elem
    let copied := name ++ "Inner"
    let body := unwrapElem p e (.ident "elem") (.index (.ident copied) (.ident "idx"))
    let made := Stmt.define [copied] (.make (.name ("[]" ++ type)) (.call (.ident "len") [value] false))
    return ([made,.range "idx" "elem" value body],.ident copied)

def argument (name : String) (t : TypeExpr) : Rendering Argument := do
  let type ← wrappedType p t
  let (before,value) := unwrapParam p name t
  return ⟨⟨name,type,false⟩,before,value⟩

def variadicArgument (name : String) (elem : TypeExpr) : Rendering Argument := do
  let type ← wrappedType p elem
  let (before,value) ← unwrapVariadic p name elem
  return ⟨⟨name,type,true⟩,before,value⟩

def arguments (e : Entry) (m : Selection) : Nat → List Param → Rendering (List Argument)
  | _, [] => return []
  | index, param :: rest => do
    let name := Naming.paramName param.name index
    if m.signature.variadic && rest.isEmpty then
      match param.type with
      | .slice elem => return [← variadicArgument p name elem]
      | t => throw (.notForwardable e.key m.name name t)
    else
      let first ← argument p name param.type
      let later ← arguments e m (index + 1) rest
      return first :: later

/-- The method that forwards with the given arguments. -/
def forwarding (e : Entry) (proxy : String) (m : Selection) (args : List Argument) (results : List TypeRef) :
    FuncDecl :=
  let receiver := receiverName proxy m
  let self := Expr.ident receiver
  let method := Expr.selector (.selector self innerName) m.name
  let call := Expr.call method (args.map (·.value)) m.signature.variadic
  { receiver := some ⟨receiver,.name (if 0 < e.descriptor.depth then "*" ++ proxy else proxy)⟩
    name := m.name
    params := args.map (·.param)
    results := results
    body := args.flatMap (·.before) ++ p.callAndReturn call (.selector self transformerName) m.signature.results }

def forward (e : Entry) (proxy : String) (m : Selection) : Rendering FuncDecl := do
  let args ← arguments p e m 0 m.signature.params
  let results ← m.signature.results.mapM fun r => wrappedType p r.type
  return forwarding p e proxy m args results

def variantDecls (proxy : String) (e : Entry) : Rendering (List Decl) := do
  let constructor ← constructor p e proxy
  let methods ← (p.ownedMethods e).mapM fun m => forward p e proxy m
  return .func constructor :: methods.map .func

def decls (proxy : String) (g : Group) : Rendering (List Decl) := do
  let inner ← renderType p g.descriptor.type
  let transformer ← transformer p
  let variants ← (p.catalog.wrappedMembers g).mapM (variantDecls p proxy)
  return .struct proxy [⟨innerName,inner⟩,⟨transformerName,transformer⟩] :: variants.flatten

/-- The file of a group, written from no imports on. -/
def unit (g : Group) : Except Error OutputUnit := do
  let root := g.descriptor.type
  let proxy := Naming.proxyName p.types root
  let (decls,imports) ← (decls p proxy g).run .empty
  return {
    fileName := Naming.fileName p.types root
    rootKey := g.key
    proxyName := proxy
    variants := (p.catalog.wrappedMembers g).map (·.key)
    file := ⟨p.target.package,some generatedComment,imports,decls⟩ }

end Plan.Threaded

namespace Code.Rendering
variable {α β γ : Type} {m : Rendering α} {whole uses uses' : List (String × String)} {a : α} {b : β} {e : Error}

/-- After any uses that `whole` begins with, these and its own, the rendering gives `a`. -/
def Gives (whole : List (String × String)) (m : Rendering α) (uses : List (String × String)) (a : α) : Prop :=
  ∀ before, before ++ uses <+: whole → m.run (.ofUses before) = .ok (a,.ofUses (before ++ uses))

def Fails (m : Rendering α) (e : Error) : Prop := ∀ before, m.run (.ofUses before) = .error e

/-- The rendering does what `x` says: it spells what this gives, records the packages in it, and fails as it does. -/
structure Threads (m : Rendering α) (x : Except Error β) (uses : β → List (String × String))
    (spell : Qualifier → β → α) : Prop where
  ok : ∀ b, x = .ok b → ∀ whole, Gives whole m (uses b) (spell (Imports.ofUses whole).qualifier b)
  error : ∀ e, x = .error e → Fails m e

namespace Gives

theorem pure (whole : List (String × String)) (a : α) : Gives whole (Pure.pure a) [] a := by
  intro before _
  rw [List.append_nil]
  rfl

theorem bind {k : α → Rendering β} (first : Gives whole m uses a) (rest : Gives whole (k a) uses' b) :
    Gives whole (m >>= k) (uses ++ uses') b := by
  intro before fits
  rw [← List.append_assoc] at fits ⊢
  rw [StateT.run_bind,first before ((List.prefix_append _ _).trans fits)]
  exact rest _ fits

theorem map (first : Gives whole m uses a) (f : α → β) : Gives whole (m >>= fun a => Pure.pure (f a)) uses (f a) := by
  have done := first.bind (k := fun a => Pure.pure (f a)) (pure whole (f a))
  rwa [List.append_nil] at done

end Gives

namespace Fails

theorem bind (first : Fails m e) (k : α → Rendering β) : Fails (m >>= k) e := by
  intro before
  rw [StateT.run_bind,first before]
  rfl

/-- What comes first is done whatever follows, so it is seen to be done when nothing does. -/
theorem after {value : List (String × String) → α} (first : ∀ whole, Gives whole m uses (value whole))
    {k : α → Rendering β} (rest : ∀ a, Fails (k a) e) : Fails (m >>= k) e := by
  intro before
  rw [StateT.run_bind,first (before ++ uses) before List.prefix_rfl]
  exact rest _ _

end Fails

/-- A name is spelled with the alias that its package is given, and keeps. -/
theorem gives_qualifier (whole : List (String × String)) (path package : String) :
    Gives whole (qualifier path package) [(path,package)] ((Imports.ofUses whole).qualifier path package) := by
  rintro before ⟨later,rfl⟩
  have settled : (Imports.ofUses (before ++ [(path,package)] ++ later)).qualifier path package =
      Imports.answer before path package := by
    rw [Imports.qualifier,Imports.alias?_append (Imports.alias?_answer before path package) later]
    rfl
  rw [settled,Imports.ofUses_concat]
  rfl

namespace Threads
variable {uses : β → List (String × String)} {spell : Qualifier → β → α}

theorem of_gives {b : β}
    (gives : ∀ whole, Gives whole m (uses b) (spell (Imports.ofUses whole).qualifier b)) :
    Threads m (.ok b) uses spell := by
  constructor
  · intro b' equal
    cases equal
    exact gives
  · intro e equal
    cases equal

theorem of_fails (fails : Fails m e) : Threads m (.error e : Except Error β) uses spell := by
  constructor
  · intro b equal
    cases equal
  · intro e' equal
    cases equal
    exact fails

theorem mapM {δ : Type} {l : List δ} {f : δ → Rendering α} {g : δ → Except Error β}
    (each : ∀ d ∈ l, Threads (f d) (g d) uses spell) :
    Threads (l.mapM f) (l.mapM g) (List.flatMap uses) fun q => List.map (spell q) := by
  induction l with
  | nil => exact .of_gives fun whole => .pure whole []
  | cons d l ih =>
    obtain ⟨first,others⟩ := List.forall_mem_cons.mp each
    specialize ih others
    rw [List.mapM_cons,List.mapM_cons]
    cases made : g d with
    | error e => exact .of_fails ((first.error e made).bind _)
    | ok b =>
      have first := first.ok b made
      cases rest : l.mapM g with
      | error e => exact .of_fails (.after first fun _ => (ih.error e rest).bind _)
      | ok bs => exact .of_gives fun whole => (first whole).bind ((ih.ok bs rest whole).map _)

end Threads

end Code.Rendering

namespace Plan.Threaded
open Rendering
variable {p : Plan}

theorem gives_typeText (u : Universe) (whole : List (String × String)) (t : TypeExpr) :
    Gives whole (typeText u t) (TypeRef.ofType u t).uses
      ((TypeRef.ofType u t).text (Imports.ofUses whole).qualifier) := by
  induction t with
  | error | basic _ | struct | interface => exact .pure whole _
  | named n => exact (gives_qualifier whole n.path (u.packageName n.path)).map _
  | pointer t ih | slice t ih | array n t ih | chan d t ih => exact ih.map _
  | map k v key value => exact key.bind (value.map _)

theorem gives_renderType (p : Plan) (whole : List (String × String)) (t : TypeExpr) :
    Gives whole (renderType p t) (TypeRef.ofType p.types t).uses
      ((TypeRef.ofType p.types t).spell (Imports.ofUses whole).qualifier) :=
  (gives_typeText p.types whole t).map TypeRef.name

theorem gives_transformer (p : Plan) (whole : List (String × String)) :
    Gives whole (transformer p) p.transformer.uses (p.transformer.spell (Imports.ofUses whole).qualifier) := by
  unfold transformer Plan.transformer
  dsimp only
  split
  · exact .pure whole _
  · exact (gives_qualifier whole _ _).map _

theorem uses_pointers (n : Nat) (name : String) : (TypeRef.pointers n (.name name)).uses = [] := by
  induction n with
  | zero => rfl
  | succ n ih => exact ih

theorem gives_wrappedType (p : Plan) (whole : List (String × String)) (t : TypeExpr) :
    Gives whole (wrappedType p t) (p.wrappedType t).uses
      ((p.wrappedType t).spell (Imports.ofUses whole).qualifier) := by
  unfold wrappedType Plan.wrappedType
  cases p.entryAtLeast? .hard t with
  | none => exact gives_renderType p whole t
  | some e =>
    dsimp only
    rw [uses_pointers,TypeRef.spell,TypeRef.text_pointers_eq]
    exact .pure whole _

theorem spell_constructor (q : Qualifier) (e : Entry) (proxy : String) :
    (p.constructor e proxy).spell q = {
      receiver := none
      name := Naming.constructorName p.types e.descriptor
      params := [⟨innerName,(TypeRef.ofType p.types e.descriptor.type).spell q,false⟩,
        ⟨transformerName,p.transformer.spell q,false⟩]
      results := [(p.wrappedType e.descriptor.type).spell q]
      body := constructorBody e.descriptor proxy } := by
  have plain : ∀ t ∈ Stmt.typesOfAll (constructorBody e.descriptor proxy), t.Plain := by
    rw [types_constructorBody,List.forall_mem_singleton]
    exact ⟨proxy,rfl⟩
  unfold FuncDecl.spell Plan.constructor
  rw [Stmt.spellAll_of_plain _ plain]
  rfl

theorem uses_constructor (e : Entry) (proxy : String) :
    (p.constructor e proxy).uses = (TypeRef.ofType p.types e.descriptor.type).uses ++
      (p.transformer.uses ++ (p.wrappedType e.descriptor.type).uses) := by
  simp [FuncDecl.uses,Plan.constructor,Stmt.usesOfAll_eq,types_constructorBody,TypeRef.uses]

theorem gives_constructor (p : Plan) (whole : List (String × String)) (e : Entry) (proxy : String) :
    Gives whole (constructor p e proxy) (p.constructor e proxy).uses
      ((p.constructor e proxy).spell (Imports.ofUses whole).qualifier) := by
  rw [uses_constructor,spell_constructor]
  exact (gives_renderType p whole _).bind ((gives_transformer p whole).bind ((gives_wrappedType p whole _).map _))

/-- An argument with its types spelled for good. What is passed on has none. -/
def spellArgument (q : Qualifier) (a : Argument) : Argument := ⟨a.param.spell q,Stmt.spellAll q a.before,a.value⟩

def usesOfArguments (args : List Argument) : List (String × String) :=
  args.flatMap (·.param.type.uses) ++ Stmt.usesOfAll (args.flatMap (·.before))

theorem spell_takeOut (q : Qualifier) (e : Entry) (holder : String) {value target : Expr} (taken : value.types = [])
    (assigned : target.types = []) : (p.takeOut e holder value target).spell q = takeOut p e holder value target := by
  simp only [Plan.takeOut,takeOut,Stmt.spell,Stmt.spellInit,Stmt.spellAll,Expr.spell,TypeRef.spell,TypeRef.text,
    Expr.spell_of_untyped taken,Expr.spell_of_untyped assigned]

theorem spell_argument (q : Qualifier) (name : String) (t : TypeExpr) :
    spellArgument q (p.argument name t) =
      ⟨⟨name,(p.wrappedType t).spell q,false⟩,(unwrapParam p name t).1,(unwrapParam p name t).2⟩ := by
  have taken : (Expr.ident name).types = [] := by rw [Expr.types]
  unfold Plan.argument unwrapParam spellArgument
  cases p.entryAtLeast? .soft t with
  | none => rfl
  | some e =>
    by_cases isSoft : e.status = .soft
    · simp [isSoft,ParamDecl.spell,Stmt.spellAll,spell_takeOut q e _ taken taken]
    · simp [isSoft,ParamDecl.spell,Stmt.spellAll]

/-- Only the elements of a variadic parameter have their type written when the parameter is made ready. -/
theorem uses_argument (name : String) (t : TypeExpr) :
    (p.argument name t).param.type.uses = (p.wrappedType t).uses ∧
      Stmt.usesOfAll (p.argument name t).before = [] := by
  constructor
  · rw [argument_param]
  · unfold Plan.argument
    cases p.entryAtLeast? .soft t with
    | none => rfl
    | some e =>
      by_cases isSoft : e.status = .soft
      · simp [isSoft,Plan.takeOut,Stmt.usesOfAll_eq,TypeRef.uses]
      · simp [isSoft,Stmt.usesOfAll]

theorem gives_argument (p : Plan) (whole : List (String × String)) (name : String) (t : TypeExpr) :
    Gives whole (argument p name t) (p.argument name t).param.type.uses
      (spellArgument (Imports.ofUses whole).qualifier (p.argument name t)) := by
  rw [(uses_argument name t).1,spell_argument]
  exact (gives_wrappedType p whole t).map _

theorem spell_unwrapElem (q : Qualifier) (e : Entry) {item slot : Expr} (taken : item.types = [])
    (assigned : slot.types = []) :
    Stmt.spellAll q (if e.status = .soft then [.assign slot item,p.takeOut e "elemProxy" item slot]
      else [.assign slot (hardInner e item)]) = unwrapElem p e item slot := by
  unfold unwrapElem
  split
  · simp only [Stmt.spellAll,Stmt.spell,Expr.spell_of_untyped taken,Expr.spell_of_untyped assigned,
      spell_takeOut q e _ taken assigned]
  · simp only [Stmt.spellAll,Stmt.spell,Expr.spell_of_untyped assigned,Expr.spell_of_untyped (types_hardInner taken)]

theorem uses_unwrapElem (e : Entry) {item slot : Expr} (taken : item.types = []) (assigned : slot.types = []) :
    Stmt.usesOfAll (if e.status = .soft then [.assign slot item,p.takeOut e "elemProxy" item slot]
      else [.assign slot (hardInner e item)]) = [] := by
  split
  · simp [Stmt.usesOfAll_eq,Plan.takeOut,taken,assigned,TypeRef.uses]
  · simp [Stmt.usesOfAll_eq,types_hardInner taken,assigned]

theorem gives_unwrapVariadic (p : Plan) (whole : List (String × String)) (name : String) (elem : TypeExpr) :
    Gives whole (unwrapVariadic p name elem) (Stmt.usesOfAll (p.variadicArgument name elem).before)
      (Stmt.spellAll (Imports.ofUses whole).qualifier (p.variadicArgument name elem).before,
        (p.variadicArgument name elem).value) := by
  have item : (Expr.ident "elem").types = [] := by rw [Expr.types]
  have slot : ((Expr.ident (name ++ "Inner")).index (.ident "idx")).types = [] := by simp
  unfold unwrapVariadic Plan.variadicArgument
  cases p.entryAtLeast? .soft elem with
  | none => exact .pure whole _
  | some e =>
    simp only [Stmt.usesOfAll,Stmt.uses,Expr.uses,Expr.usesOfAll,TypeRef.uses,uses_unwrapElem e item slot,
      List.append_nil,Stmt.spellAll,Stmt.spell,Expr.spell,Expr.spellAll,TypeRef.spell,TypeRef.text,
      spell_unwrapElem _ e item slot]
    exact (gives_typeText p.types whole elem).map _

theorem gives_variadicArgument (p : Plan) (whole : List (String × String)) (name : String) (elem : TypeExpr) :
    Gives whole (variadicArgument p name elem) (usesOfArguments [p.variadicArgument name elem])
      (spellArgument (Imports.ofUses whole).qualifier (p.variadicArgument name elem)) := by
  have uses : usesOfArguments [p.variadicArgument name elem] =
      (p.wrappedType elem).uses ++ Stmt.usesOfAll (p.variadicArgument name elem).before := by
    simp [usesOfArguments,variadicArgument_param]
  have declared : (p.variadicArgument name elem).param.spell (Imports.ofUses whole).qualifier =
      ⟨name,(p.wrappedType elem).spell (Imports.ofUses whole).qualifier,true⟩ := by
    rw [variadicArgument_param]
    rfl
  rw [uses,spellArgument,declared]
  exact (gives_wrappedType p whole elem).bind ((gives_unwrapVariadic p whole name elem).map _)

theorem usesOfArguments_cons {a : Argument} (none : Stmt.usesOfAll a.before = []) (args : List Argument) :
    usesOfArguments (a :: args) = a.param.type.uses ++ usesOfArguments args := by
  rw [Stmt.usesOfAll_eq] at none
  simp [usesOfArguments,Stmt.usesOfAll_eq,Stmt.typesOfAll_append,none]

theorem threads_arguments (p : Plan) (e : Entry) (m : Selection) (index : Nat) (params : List Param) :
    Threads (arguments p e m index params) (p.arguments e m index params) usesOfArguments
      fun q => List.map (spellArgument q) := by
  induction params generalizing index with
  | nil => exact .of_gives fun whole => .pure whole []
  | cons param rest ih =>
    unfold arguments Plan.arguments
    dsimp only
    by_cases last : (m.signature.variadic && rest.isEmpty) = true
    · rw [if_pos last,if_pos last]
      cases param.type with
      | slice elem => exact .of_gives fun whole => (gives_variadicArgument p whole _ elem).map ([·])
      | _ => exact .of_fails fun _ => rfl
    · rw [if_neg last,if_neg last]
      have first (whole : List (String × String)) :=
        gives_argument p whole (Naming.paramName param.name index) param.type
      cases made : p.arguments e m (index + 1) rest with
      | error err => exact .of_fails (.after first fun _ => ((ih (index + 1)).error err made).bind _)
      | ok args =>
        refine .of_gives fun whole => ?_
        rw [usesOfArguments_cons (uses_argument _ _).2]
        exact (first whole).bind (((ih (index + 1)).ok args made whole).map _)

theorem gives_results (p : Plan) (whole : List (String × String)) (results : List Param) :
    Gives whole (results.mapM fun r => wrappedType p r.type)
      ((results.map fun r => p.wrappedType r.type).flatMap TypeRef.uses)
      ((results.map fun r => p.wrappedType r.type).map (TypeRef.spell (Imports.ofUses whole).qualifier)) := by
  have each : ∀ r ∈ results,
      Threads (wrappedType p r.type) (Except.ok (p.wrappedType r.type)) TypeRef.uses TypeRef.spell :=
    fun r _ => .of_gives fun whole => gives_wrappedType p whole r.type
  exact (Threads.mapM each).ok _ List.mapM_pure whole

theorem forward_of_arguments {e : Entry} {m : Selection} {args : List Argument}
    (made : p.arguments e m 0 m.signature.params = .ok args) (proxy : String) : ∃ f, p.forward e proxy m = .ok f ∧
      f.uses = usesOfArguments args ++ (m.signature.results.map fun r => p.wrappedType r.type).flatMap TypeRef.uses ∧
      ∀ q, f.spell q = forwarding p e proxy m (args.map (spellArgument q))
        ((m.signature.results.map fun r => p.wrappedType r.type).map (TypeRef.spell q)) := by
  have returns (receiver : String) : Stmt.typesOfAll (p.callAndReturn
      (.call (.selector (.selector (.ident receiver) innerName) m.name) (args.map (·.value)) m.signature.variadic)
      (.selector (.ident receiver) transformerName) m.signature.results) = [] := by
    apply types_callAndReturn
    · simp [types_passed made]
    · simp
  unfold Plan.forward
  rw [made]
  refine ⟨_,rfl,?_,fun q => ?_⟩
  · have receiver : (if 0 < e.descriptor.depth then (TypeRef.name proxy).pointer else .name proxy).uses = [] := by
      split <;> rfl
    simp [FuncDecl.uses,usesOfArguments,Stmt.usesOfAll_eq,Stmt.typesOfAll_append,returns,receiver,List.flatMap_map]
  · have before : Stmt.spellAll q (args.flatMap (·.before)) = (args.map (spellArgument q)).flatMap (·.before) := by
      rw [Stmt.spellAll_flatMap,List.flatMap_map]
      rfl
    have receiver : (if 0 < e.descriptor.depth then (TypeRef.name proxy).pointer else .name proxy).spell q =
        .name (if 0 < e.descriptor.depth then "*" ++ proxy else proxy) := by
      split <;> rfl
    simp only [FuncDecl.spell,forwarding,Stmt.spellAll_append,before,List.map_map,Option.map_some,Field.spell,
      receiver]
    rw [Stmt.spellAll_of_plain _ (by simp [returns])]
    rfl

theorem threads_forward (p : Plan) (e : Entry) (proxy : String) (m : Selection) :
    Threads (forward p e proxy m) (p.forward e proxy m) FuncDecl.uses FuncDecl.spell := by
  have first := threads_arguments p e m 0 m.signature.params
  cases made : p.arguments e m 0 m.signature.params with
  | error err =>
    have failed : p.forward e proxy m = .error err := by
      unfold Plan.forward
      rw [made]
      rfl
    rw [failed]
    exact .of_fails ((first.error err made).bind _)
  | ok args =>
    obtain ⟨f,ok,uses,spelled⟩ := forward_of_arguments made proxy
    rw [ok]
    refine .of_gives fun whole => ?_
    rw [uses,spelled]
    exact (first.ok args made whole).bind ((gives_results p whole m.signature.results).map _)

theorem threads_variantDecls (p : Plan) (proxy : String) (e : Entry) :
    Threads (variantDecls p proxy e) (p.variantDecls proxy e) (List.flatMap Decl.uses)
      fun q => List.map (Decl.spell q) := by
  unfold variantDecls Plan.variantDecls
  have first (whole : List (String × String)) := gives_constructor p whole e proxy
  have methods := Threads.mapM fun m (_ : m ∈ p.ownedMethods e) => threads_forward p e proxy m
  cases made : (p.ownedMethods e).mapM fun m => p.forward e proxy m with
  | error err => exact .of_fails (.after first fun _ => (methods.error err made).bind _)
  | ok fs =>
    refine .of_gives fun whole => ?_
    have uses : List.flatMap Decl.uses (.func (p.constructor e proxy) :: fs.map .func) =
        (p.constructor e proxy).uses ++ fs.flatMap FuncDecl.uses := by
      rw [List.flatMap_cons,List.flatMap_map]
      rfl
    have spelled (q : Qualifier) : List.map (Decl.spell q) (.func (p.constructor e proxy) :: fs.map .func) =
        .func ((p.constructor e proxy).spell q) :: (fs.map (FuncDecl.spell q)).map .func := by
      rw [List.map_cons,List.map_map,List.map_map]
      rfl
    rw [uses,spelled]
    exact (first whole).bind ((methods.ok fs made whole).map _)

theorem gives_decls (p : Plan) (whole : List (String × String)) (proxy : String) (g : Group)
    {variants : List (List Decl)} (made : (p.catalog.wrappedMembers g).mapM (p.variantDecls proxy) = .ok variants) :
    Gives whole (decls p proxy g) ((p.proxyDecl proxy g.descriptor.type :: variants.flatten).flatMap Decl.uses)
      ((p.proxyDecl proxy g.descriptor.type :: variants.flatten).map
        (Decl.spell (Imports.ofUses whole).qualifier)) := by
  have each := Threads.mapM fun e (_ : e ∈ p.catalog.wrappedMembers g) => threads_variantDecls p proxy e
  have uses : (p.proxyDecl proxy g.descriptor.type :: variants.flatten).flatMap Decl.uses =
      (TypeRef.ofType p.types g.descriptor.type).uses ++
        (p.transformer.uses ++ variants.flatMap (List.flatMap Decl.uses)) := by
    rw [List.flatMap_cons,List.flatten_eq_flatMap,List.flatMap_assoc]
    simp [Plan.proxyDecl,Decl.uses]
  have spelled (q : Qualifier) : (p.proxyDecl proxy g.descriptor.type :: variants.flatten).map (Decl.spell q) =
      .struct proxy [⟨innerName,(TypeRef.ofType p.types g.descriptor.type).spell q⟩,
        ⟨transformerName,p.transformer.spell q⟩] :: (variants.map (List.map (Decl.spell q))).flatten := by
    rw [List.map_cons,List.map_flatten]
    rfl
  rw [uses,spelled]
  exact (gives_renderType p whole _).bind ((gives_transformer p whole).bind ((each.ok variants made whole).map _))

theorem fails_decls (p : Plan) (proxy : String) (g : Group) {e : Error}
    (failed : (p.catalog.wrappedMembers g).mapM (p.variantDecls proxy) = .error e) : Fails (decls p proxy g) e := by
  have each := Threads.mapM fun e (_ : e ∈ p.catalog.wrappedMembers g) => threads_variantDecls p proxy e
  apply Fails.after fun whole => gives_renderType p whole g.descriptor.type
  intro inner
  apply Fails.after fun whole => gives_transformer p whole
  intro transformer
  exact (each.error e failed).bind _

/-- Handing the imports on from writer to writer gives the file that is made of finished declarations, with its types
spelled: the same imports, or the same error. -/
theorem unit_eq (p : Plan) (g : Group) : unit p g = (p.unit g).map OutputUnit.spell := by
  unfold unit Plan.unit
  dsimp only
  cases made : (p.catalog.wrappedMembers g).mapM (p.variantDecls (Naming.proxyName p.types g.descriptor.type)) with
  | error e =>
    have failed : (decls p _ g).run .empty = .error e := fails_decls p _ g made []
    rw [failed]
    rfl
  | ok variants =>
    have given := gives_decls p _ _ g made [] List.prefix_rfl
    rw [List.nil_append] at given
    have given : (decls p _ g).run .empty = _ := given
    rw [given]
    rfl

/-- The files read the same. -/
theorem text_unit (p : Plan) (g : Group) : (unit p g).map OutputUnit.text = (p.unit g).map OutputUnit.text := by
  rw [unit_eq]
  cases p.unit g with
  | error e => rfl
  | ok unit => exact congrArg Except.ok unit.text_spell

end Plan.Threaded
end ProxyGen
