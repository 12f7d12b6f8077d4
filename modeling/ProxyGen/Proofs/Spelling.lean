import ProxyGen.Proofs.TypeTexts
import ProxyGen.Proxy.Unit

/-! Declarations with their types spelled for good. A file whose types are spelled with its aliases beforehand reads
as the file itself, and what has only types that are written as they stand is spelled already. -/
namespace ProxyGen

namespace Code
variable {q : Qualifier}

/-- A type with its names spelled for good. -/
def TypeRef.spell (q : Qualifier) (t : TypeRef) : TypeRef := .name (t.text q)

namespace Expr

mutual

/-- An expression with the types in it spelled for good. -/
def spell (q : Qualifier) : Expr → Expr
  | ident name => ident name
  | nil => nil
  | selector e field => selector (e.spell q) field
  | call f args spread => call (f.spell q) (spellAll q args) spread
  | addrOf e => addrOf (e.spell q)
  | deref e => deref (e.spell q)
  | composite t fields => composite (t.spell q) (spellFields q fields)
  | binary op a b => binary op (a.spell q) (b.spell q)
  | index e i => index (e.spell q) (i.spell q)
  | typeAssert e t => typeAssert (e.spell q) (t.spell q)
  | make t e => make (t.spell q) (e.spell q)

def spellAll (q : Qualifier) : List Expr → List Expr
  | [] => []
  | e :: rest => e.spell q :: spellAll q rest

def spellFields (q : Qualifier) : List (String × Expr) → List (String × Expr)
  | [] => []
  | field :: rest => (field.1,field.2.spell q) :: spellFields q rest

end

theorem isBinary_spell (q : Qualifier) (e : Expr) : (e.spell q).isBinary = e.isBinary := by
  cases e <;> rfl

theorem isUnary_spell (q : Qualifier) (e : Expr) : (e.spell q).isUnary = e.isUnary := by
  cases e <;> rfl

theorem names_spellFields (q : Qualifier) (fields : List (String × Expr)) :
    (spellFields q fields).map (fun f => f.1 ++ ":") = fields.map fun f => f.1 ++ ":" := by
  induction fields with
  | nil => rfl
  | cons field rest ih => rw [spellFields,List.map_cons,List.map_cons,ih]

mutual

theorem text_spell (q q' : Qualifier) (depth : Nat) : ∀ e : Expr, (e.spell q).text q' depth = e.text q depth
  | ident _ | nil => by simp only [spell,text]
  | selector e _ => by simp only [spell,text,text_spell q q' depth e,isBinary_spell,isUnary_spell]
  | call f args _ => by
    simp only [spell,text,text_spell q q' depth f,texts_spell q q' depth args,isBinary_spell,isUnary_spell]
  | addrOf e | deref e => by simp only [spell,text,text_spell q q' depth e,isBinary_spell]
  | composite t [] => by simp only [spell,spellFields,text,TypeRef.spell,TypeRef.text]
  | composite t (field :: fields) => by
    have names := names_spellFields q (field :: fields)
    have lines (width : Nat) := fieldLines_spell q q' (depth + 1) width (field :: fields)
    simp only [spellFields] at names lines
    simp only [spell,spellFields,text,TypeRef.spell,TypeRef.text,names,lines]
  | binary _ a b => by simp only [spell,text,text_spell q q' depth a,text_spell q q' depth b]
  | index e i => by
    simp only [spell,text,text_spell q q' depth e,text_spell q q' depth i,isBinary_spell,isUnary_spell]
  | typeAssert e _ => by
    simp only [spell,text,text_spell q q' depth e,isBinary_spell,isUnary_spell,TypeRef.spell,TypeRef.text]
  | make _ e => by simp only [spell,text,text_spell q q' depth e,TypeRef.spell,TypeRef.text]

theorem texts_spell (q q' : Qualifier) (depth : Nat) : ∀ es : List Expr,
    texts q' depth (spellAll q es) = texts q depth es
  | [] => rfl
  | e :: rest => by simp only [spellAll,texts,text_spell q q' depth e,texts_spell q q' depth rest]

theorem fieldLines_spell (q q' : Qualifier) (depth width : Nat) : ∀ fields : List (String × Expr),
    fieldLines q' depth width (spellFields q fields) = fieldLines q depth width fields
  | [] => rfl
  | field :: rest => by
    simp only [spellFields,fieldLines,text_spell q q' depth field.2,fieldLines_spell q q' depth width rest]

end

end Expr

/-- The type is written as it stands. -/
def TypeRef.Plain (t : TypeRef) : Prop := ∃ text, t = .name text

namespace Expr

mutual

theorem spell_of_plain : ∀ e : Expr, (∀ t ∈ e.types, t.Plain) → e.spell q = e
  | ident _, _ | nil, _ => by simp only [spell]
  | selector e _, plain | addrOf e, plain | deref e, plain => by simp only [spell,spell_of_plain e plain]
  | call f args _, plain => by
    obtain ⟨callee,arguments⟩ := List.forall_mem_append.mp plain
    simp only [spell,spell_of_plain f callee,spellAll_of_plain args arguments]
  | composite t fields, plain => by
    obtain ⟨⟨text,rfl⟩,inside⟩ := List.forall_mem_cons.mp plain
    simp only [spell,TypeRef.spell,TypeRef.text,spellFields_of_plain fields inside]
  | binary _ a b, plain | index a b, plain => by
    obtain ⟨first,second⟩ := List.forall_mem_append.mp plain
    simp only [spell,spell_of_plain a first,spell_of_plain b second]
  | typeAssert e t, plain => by
    obtain ⟨base,asserted⟩ := List.forall_mem_append.mp plain
    obtain ⟨text,rfl⟩ := asserted t List.mem_cons_self
    simp only [spell,TypeRef.spell,TypeRef.text,spell_of_plain e base]
  | make t e, plain => by
    obtain ⟨⟨text,rfl⟩,length⟩ := List.forall_mem_cons.mp plain
    simp only [spell,TypeRef.spell,TypeRef.text,spell_of_plain e length]

theorem spellAll_of_plain : ∀ es : List Expr, (∀ t ∈ typesOfAll es, t.Plain) → spellAll q es = es
  | [], _ => rfl
  | e :: rest, plain => by
    obtain ⟨first,others⟩ := List.forall_mem_append.mp plain
    simp only [spellAll,spell_of_plain e first,spellAll_of_plain rest others]

theorem spellFields_of_plain : ∀ fields : List (String × Expr), (∀ t ∈ typesOfFields fields, t.Plain) →
    spellFields q fields = fields
  | [], _ => rfl
  | field :: rest, plain => by
    obtain ⟨first,others⟩ := List.forall_mem_append.mp plain
    simp only [spellFields,spell_of_plain field.2 first,spellFields_of_plain rest others]

end

theorem spell_of_untyped {e : Expr} (none : e.types = []) : e.spell q = e :=
  spell_of_plain e (by simp [none])

end Expr

namespace Stmt

mutual

/-- A statement with the types in it spelled for good. -/
def spell (q : Qualifier) : Stmt → Stmt
  | define names e => define names (e.spell q)
  | assign a b => assign (a.spell q) (b.spell q)
  | ifThen init cond body => ifThen (spellInit q init) (cond.spell q) (spellAll q body)
  | range key value collection body => range key value (collection.spell q) (spellAll q body)
  | ret values => ret (Expr.spellAll q values)
  | expr e => expr (e.spell q)
  | blank => blank

def spellInit (q : Qualifier) : Option Stmt → Option Stmt
  | none => none
  | some s => some (s.spell q)

def spellAll (q : Qualifier) : List Stmt → List Stmt
  | [] => []
  | s :: rest => s.spell q :: spellAll q rest

end

theorem spellAll_append (first rest : List Stmt) :
    spellAll q (first ++ rest) = spellAll q first ++ spellAll q rest := by
  induction first with
  | nil => rfl
  | cons s first ih => rw [List.cons_append,spellAll,ih,spellAll,List.cons_append]

theorem spellAll_flatMap {α : Type} (f : α → List Stmt) (l : List α) :
    spellAll q (l.flatMap f) = l.flatMap fun a => spellAll q (f a) := by
  induction l with
  | nil => rfl
  | cons a l ih => rw [List.flatMap_cons,spellAll_append,ih,List.flatMap_cons]

theorem simpleText_spell (q q' : Qualifier) (depth : Nat) (s : Stmt) :
    (s.spell q).simpleText q' depth = s.simpleText q depth := by
  cases s with
  | define | assign | expr => simp only [spell,simpleText,Expr.text_spell q q']
  | ret values =>
    cases values with
    | nil => rfl
    | cons value rest =>
      have values := Expr.texts_spell q q' depth (value :: rest)
      simp only [Expr.spellAll] at values
      simp only [spell,Expr.spellAll,simpleText,values]
  | ifThen | range | blank => simp only [spell,simpleText]

mutual

theorem lines_spell (q q' : Qualifier) (depth : Nat) : ∀ s : Stmt, (s.spell q).lines q' depth = s.lines q depth
  | define _ _ | assign _ _ | expr _ => by simp only [spell,lines,simpleText,Expr.text_spell q q']
  | ret values => by
    have text := simpleText_spell q q' depth (ret values)
    simp only [spell] at text
    simp only [spell,lines,text]
  | ifThen init cond body => by
    cases init with
    | none => simp only [spell,spellInit,lines,Expr.text_spell q q',block_spell q q' (depth + 1) body]
    | some s =>
      simp only [spell,spellInit,lines,Expr.text_spell q q',block_spell q q' (depth + 1) body,
        simpleText_spell q q' depth s]
  | range _ _ collection body => by
    simp only [spell,lines,Expr.text_spell q q',block_spell q q' (depth + 1) body]
  | blank => by simp only [spell,lines]

theorem block_spell (q q' : Qualifier) (depth : Nat) : ∀ body : List Stmt,
    block q' depth (spellAll q body) = block q depth body
  | [] => rfl
  | s :: rest => by simp only [spellAll,block,lines_spell q q' depth s,block_spell q q' depth rest]

end

mutual

theorem spell_of_plain : ∀ s : Stmt, (∀ t ∈ s.types, t.Plain) → s.spell q = s
  | define _ e, plain | expr e, plain => by simp only [spell,Expr.spell_of_plain e plain]
  | assign a b, plain => by
    obtain ⟨target,value⟩ := List.forall_mem_append.mp plain
    simp only [spell,Expr.spell_of_plain a target,Expr.spell_of_plain b value]
  | ifThen init cond body, plain => by
    obtain ⟨head,inner⟩ := List.forall_mem_append.mp plain
    obtain ⟨before,tested⟩ := List.forall_mem_append.mp head
    simp only [spell,spellInit_of_plain init before,Expr.spell_of_plain cond tested,spellAll_of_plain body inner]
  | range _ _ collection body, plain => by
    obtain ⟨ranged,inner⟩ := List.forall_mem_append.mp plain
    simp only [spell,Expr.spell_of_plain collection ranged,spellAll_of_plain body inner]
  | ret values, plain => by simp only [spell,Expr.spellAll_of_plain values plain]
  | blank, _ => by simp only [spell]

theorem spellInit_of_plain : ∀ init : Option Stmt, (∀ t ∈ typesOfInit init, t.Plain) → spellInit q init = init
  | none, _ => rfl
  | some s, plain => by simp only [spellInit,spell_of_plain s plain]

theorem spellAll_of_plain : ∀ body : List Stmt, (∀ t ∈ typesOfAll body, t.Plain) → spellAll q body = body
  | [], _ => rfl
  | s :: rest, plain => by
    obtain ⟨first,others⟩ := List.forall_mem_append.mp plain
    simp only [spellAll,spell_of_plain s first,spellAll_of_plain rest others]

end

end Stmt

def Field.spell (q : Qualifier) (f : Field) : Field := ⟨f.name,f.type.spell q⟩

def ParamDecl.spell (q : Qualifier) (d : ParamDecl) : ParamDecl := ⟨d.name,d.type.spell q,d.variadic⟩

def FuncDecl.spell (q : Qualifier) (f : FuncDecl) : FuncDecl where
  receiver := f.receiver.map (Field.spell q)
  name := f.name
  params := f.params.map (ParamDecl.spell q)
  results := f.results.map (TypeRef.spell q)
  body := Stmt.spellAll q f.body

/-- A declaration with the types in it spelled for good. -/
def Decl.spell (q : Qualifier) : Decl → Decl
  | struct name fields => struct name (fields.map (Field.spell q))
  | func f => func (f.spell q)

def File.spell (f : File) : File := { f with decls := f.decls.map (Decl.spell f.imports.qualifier) }

theorem resultsText_spell (q q' : Qualifier) (results : List TypeRef) :
    resultsText q' (results.map (TypeRef.spell q)) = resultsText q results := by
  match results with
  | [] | [_] => rfl
  | _ :: _ :: _ =>
    simp only [List.map_cons,resultsText,List.map_map,TypeRef.spell,TypeRef.text]
    rfl

theorem Decl.text_spell (q q' : Qualifier) (d : Decl) : (d.spell q).text q' = d.text q := by
  cases d with
  | struct name fields =>
    simp only [spell,text,structText,List.map_map]
    rfl
  | func f =>
    simp only [spell,text,FuncDecl.text,FuncDecl.spell,resultsText_spell q q',Stmt.block_spell q q',List.map_map]
    cases f.receiver <;> rfl

/-- A file reads the same when its types are spelled beforehand. -/
theorem File.text_spell (f : File) : f.spell.text = f.text := by
  unfold text spell
  dsimp only
  rw [List.map_map]
  congr 3
  funext d
  exact congrArg ("\n" ++ ·) (d.text_spell f.imports.qualifier f.imports.qualifier)

end Code

def OutputUnit.spell (unit : OutputUnit) : OutputUnit := { unit with file := unit.file.spell }

theorem OutputUnit.text_spell (unit : OutputUnit) : unit.spell.text = unit.text := unit.file.text_spell

end ProxyGen
