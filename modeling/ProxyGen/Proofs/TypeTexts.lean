import ProxyGen.Code.Printer

/-! The types that are written in a declaration. A file imports what they use; each of them stands in the printed
declaration, which depends on aliases through nothing else. -/
namespace ProxyGen

/-- A text stands somewhere in another one. -/
def Occurs (part whole : String) : Prop := ∃ before after, whole = before ++ part ++ after

namespace Occurs
variable {part whole : String}

@[grind ←, simp] theorem refl (s : String) : Occurs s s := ⟨"","",by simp⟩

@[grind ←] theorem append_left (occurs : Occurs part whole) (s : String) : Occurs part (s ++ whole) := by
  obtain ⟨before,after,rfl⟩ := occurs
  exact ⟨s ++ before,after,by simp only [String.append_assoc]⟩

@[grind ←] theorem append_right (occurs : Occurs part whole) (s : String) : Occurs part (whole ++ s) := by
  obtain ⟨before,after,rfl⟩ := occurs
  exact ⟨before,after ++ s,by simp only [String.append_assoc]⟩

theorem join {texts : List String} {s : String} (member : s ∈ texts) (occurs : Occurs part s) :
    Occurs part (String.join texts) := by
  obtain ⟨before,after,rfl⟩ := List.append_of_mem member
  rw [String.join_append,String.join_cons]
  exact (occurs.append_right _).append_left _

theorem commaSeparated {texts : List String} {s : String} (member : s ∈ texts) (occurs : Occurs part s) :
    Occurs part (Code.commaSeparated texts) := by
  unfold Code.commaSeparated
  induction texts with
  | nil => cases member
  | cons first rest ih =>
    by_cases last : rest = []
    · rw [last,List.mem_singleton] at member
      rw [last,String.intercalate_singleton,← member]
      exact occurs
    · rw [String.intercalate_cons_of_ne_nil last]
      rcases List.mem_cons.mp member with rfl | member
      · exact (occurs.append_right _).append_right _
      · exact (ih member).append_left _

@[grind ←] theorem parenthesize (occurs : Occurs part whole) (needed : Bool) :
    Occurs part (Code.Expr.parenthesize needed whole) := by
  cases needed with
  | false => exact occurs
  | true => exact (occurs.append_left _).append_right _

end Occurs

namespace Code
variable {q q' : Qualifier} {t : TypeRef}

theorem TypeRef.text_pointers_eq (q : Qualifier) (n : Nat) (t : TypeRef) :
    (pointers n t).text q = String.join (List.replicate n "*") ++ t.text q := by
  induction n with
  | zero => simp [pointers]
  | succ n ih => rw [pointers,text,ih,List.replicate_succ,String.join_cons,String.append_assoc]

namespace Expr

mutual

/-- The types that are written in an expression. -/
def types : Expr → List TypeRef
  | ident _ | nil => []
  | selector e _ | addrOf e | deref e => e.types
  | call f args _ => f.types ++ typesOfAll args
  | composite t fields => t :: typesOfFields fields
  | binary _ a b | index a b => a.types ++ b.types
  | typeAssert e t => e.types ++ [t]
  | make t e => t :: e.types

def typesOfAll : List Expr → List TypeRef
  | [] => []
  | e :: rest => e.types ++ typesOfAll rest

def typesOfFields : List (String × Expr) → List TypeRef
  | [] => []
  | field :: rest => field.2.types ++ typesOfFields rest

end

attribute [simp] types typesOfAll typesOfFields

mutual

theorem uses_eq : ∀ e : Expr, e.uses = e.types.flatMap TypeRef.uses
  | ident _ | nil => by simp [uses]
  | selector e _ | addrOf e | deref e => by simp [uses,uses_eq e]
  | call f args _ => by simp [uses,uses_eq f,usesOfAll_eq args]
  | composite t fields => by simp [uses,usesOfFields_eq fields]
  | binary _ a b | index a b => by simp [uses,uses_eq a,uses_eq b]
  | typeAssert e t => by simp [uses,uses_eq e]
  | make t e => by simp [uses,uses_eq e]

theorem usesOfAll_eq : ∀ es : List Expr, usesOfAll es = (typesOfAll es).flatMap TypeRef.uses
  | [] => rfl
  | e :: rest => by simp [usesOfAll,uses_eq e,usesOfAll_eq rest]

theorem usesOfFields_eq : ∀ fields : List (String × Expr),
    usesOfFields fields = (typesOfFields fields).flatMap TypeRef.uses
  | [] => rfl
  | field :: rest => by simp [usesOfFields,uses_eq field.2,usesOfFields_eq rest]

end

mutual

theorem occurs_text (depth : Nat) : ∀ e : Expr, t ∈ e.types → Occurs (t.text q) (e.text q depth)
  | ident _, member | nil, member => by simp at member
  | selector e _, member | addrOf e, member | deref e, member => by
    have operand := occurs_text depth e member
    grind [text]
  | call f args spread, member => by
    rcases List.mem_append.mp member with callee | argument
    · have inside := occurs_text depth f callee
      grind [text]
    · obtain ⟨s,among,inside⟩ := occurs_texts depth args argument
      have listed := inside.commaSeparated among
      grind [text]
  | composite type [], member => by
    rw [List.mem_singleton.mp member,text]
    exact (Occurs.refl _).append_right _
  | composite type (field :: fields), member => by
    have written := Occurs.refl (type.text q)
    have inside (width : Nat) := occurs_fieldLines (depth + 1) width (field :: fields)
    grind [text,types]
  | binary _ a b, member | index a b, member => by
    have first := occurs_text depth a
    have second := occurs_text depth b
    grind [text,types]
  | typeAssert e type, member | make type e, member => by
    have written := Occurs.refl (type.text q)
    have operand := occurs_text depth e
    grind [text,types]

theorem occurs_texts (depth : Nat) : ∀ es : List Expr, t ∈ typesOfAll es →
    ∃ s ∈ texts q depth es, Occurs (t.text q) s
  | [], member => by simp at member
  | e :: rest, member => by
    rcases List.mem_append.mp member with first | others
    · exact ⟨_,List.mem_cons_self,occurs_text depth e first⟩
    · obtain ⟨s,among,inside⟩ := occurs_texts depth rest others
      exact ⟨s,List.mem_cons_of_mem _ among,inside⟩

theorem occurs_fieldLines (depth width : Nat) : ∀ fields : List (String × Expr), t ∈ typesOfFields fields →
    Occurs (t.text q) (fieldLines q depth width fields)
  | [], member => by simp at member
  | field :: rest, member => by
    have first := occurs_text depth field.2
    have others := occurs_fieldLines depth width rest
    grind [fieldLines,typesOfFields]

end

mutual

theorem text_congr (depth : Nat) : ∀ e : Expr, (∀ t ∈ e.types, t.text q = t.text q') →
    e.text q depth = e.text q' depth
  | ident _, _ | nil, _ => by simp only [text]
  | selector e _, same | addrOf e, same | deref e, same => by simp only [text,text_congr depth e same]
  | call f args _, same => by
    obtain ⟨callee,arguments⟩ := List.forall_mem_append.mp same
    simp only [text,text_congr depth f callee,texts_congr depth args arguments]
  | composite t [], same => by simp only [text,same t List.mem_cons_self]
  | composite t (field :: fields), same => by
    obtain ⟨type,inside⟩ := List.forall_mem_cons.mp same
    simp only [text,type,fieldLines_congr (depth + 1) _ (field :: fields) inside]
  | binary _ a b, same | index a b, same => by
    obtain ⟨first,second⟩ := List.forall_mem_append.mp same
    simp only [text,text_congr depth a first,text_congr depth b second]
  | typeAssert e t, same => by
    obtain ⟨base,asserted⟩ := List.forall_mem_append.mp same
    simp only [text,text_congr depth e base,asserted t List.mem_cons_self]
  | make t e, same => by
    obtain ⟨made,length⟩ := List.forall_mem_cons.mp same
    simp only [text,made,text_congr depth e length]

theorem texts_congr (depth : Nat) : ∀ es : List Expr, (∀ t ∈ typesOfAll es, t.text q = t.text q') →
    texts q depth es = texts q' depth es
  | [], _ => rfl
  | e :: rest, same => by
    obtain ⟨first,others⟩ := List.forall_mem_append.mp same
    simp only [texts,text_congr depth e first,texts_congr depth rest others]

theorem fieldLines_congr (depth width : Nat) : ∀ fields : List (String × Expr),
    (∀ t ∈ typesOfFields fields, t.text q = t.text q') →
      fieldLines q depth width fields = fieldLines q' depth width fields
  | [], _ => rfl
  | field :: rest, same => by
    obtain ⟨first,others⟩ := List.forall_mem_append.mp same
    simp only [fieldLines,text_congr depth field.2 first,fieldLines_congr depth width rest others]

end

theorem mem_typesOfAll {es : List Expr} : t ∈ typesOfAll es ↔ ∃ e ∈ es, t ∈ e.types := by
  induction es with
  | nil => simp
  | cons e rest ih => simp [ih]

end Expr

namespace Stmt

/-- The statement fits in front of a condition. -/
def Simple : Stmt → Prop
  | define _ _ | assign _ _ | ret _ | expr _ => True
  | ifThen _ _ _ | range _ _ _ _ | blank => False

mutual

/-- Only simple statements stand in front of conditions. -/
def Flat : Stmt → Prop
  | ifThen init _ body => (∀ s ∈ init, s.Simple) ∧ FlatAll body
  | range _ _ _ body => FlatAll body
  | define _ _ | assign _ _ | ret _ | expr _ | blank => True

def FlatAll : List Stmt → Prop
  | [] => True
  | s :: rest => s.Flat ∧ FlatAll rest

end

mutual

/-- The types that are written in a statement. -/
def types : Stmt → List TypeRef
  | define _ e | expr e => e.types
  | assign a b => a.types ++ b.types
  | ifThen init cond body => typesOfInit init ++ cond.types ++ typesOfAll body
  | range _ _ collection body => collection.types ++ typesOfAll body
  | ret values => Expr.typesOfAll values
  | blank => []

def typesOfInit : Option Stmt → List TypeRef
  | none => []
  | some s => s.types

def typesOfAll : List Stmt → List TypeRef
  | [] => []
  | s :: rest => s.types ++ typesOfAll rest

end

attribute [simp] Simple Flat FlatAll types typesOfInit typesOfAll

theorem flatAll_iff {body : List Stmt} : FlatAll body ↔ ∀ s ∈ body, s.Flat := by
  induction body with
  | nil => simp
  | cons s rest ih => simp [ih]

theorem flatAll_append {first rest : List Stmt} : FlatAll (first ++ rest) ↔ FlatAll first ∧ FlatAll rest := by
  rw [flatAll_iff,flatAll_iff,flatAll_iff,List.forall_mem_append]

theorem typesOfAll_append (first rest : List Stmt) :
    typesOfAll (first ++ rest) = typesOfAll first ++ typesOfAll rest := by
  induction first with
  | nil => rfl
  | cons s first ih => rw [List.cons_append,typesOfAll,ih,typesOfAll,List.append_assoc]

theorem mem_typesOfAll {body : List Stmt} : t ∈ typesOfAll body ↔ ∃ s ∈ body, t ∈ s.types := by
  induction body with
  | nil => simp
  | cons s rest ih => simp [ih]

mutual

theorem uses_eq : ∀ s : Stmt, s.uses = s.types.flatMap TypeRef.uses
  | define _ e | expr e => by simp [uses,Expr.uses_eq e]
  | assign a b => by simp [uses,Expr.uses_eq a,Expr.uses_eq b]
  | ifThen init cond body => by simp [uses,usesOfInit_eq init,Expr.uses_eq cond,usesOfAll_eq body]
  | range _ _ collection body => by simp [uses,Expr.uses_eq collection,usesOfAll_eq body]
  | ret values => by simp [uses,Expr.usesOfAll_eq values]
  | blank => rfl

theorem usesOfInit_eq : ∀ init : Option Stmt, usesOfInit init = (typesOfInit init).flatMap TypeRef.uses
  | none => rfl
  | some s => by simp [usesOfInit,uses_eq s]

theorem usesOfAll_eq : ∀ body : List Stmt, usesOfAll body = (typesOfAll body).flatMap TypeRef.uses
  | [] => rfl
  | s :: rest => by simp [usesOfAll,uses_eq s,usesOfAll_eq rest]

end

theorem occurs_simpleText (depth : Nat) {s : Stmt} (simple : s.Simple) (member : t ∈ s.types) :
    Occurs (t.text q) (s.simpleText q depth) := by
  cases s with
  | define names e =>
    have value := Expr.occurs_text (q := q) depth e member
    grind [simpleText]
  | assign target e =>
    have target := Expr.occurs_text (t := t) (q := q) depth target
    have value := Expr.occurs_text (t := t) (q := q) depth e
    grind [simpleText,types]
  | ret values =>
    obtain ⟨s,among,inside⟩ := Expr.occurs_texts (q := q) depth values member
    have listed := inside.commaSeparated among
    match values with
    | [] => cases among
    | value :: rest => grind [simpleText]
  | expr e =>
    have value := Expr.occurs_text (q := q) depth e member
    grind [simpleText]
  | ifThen | range | blank => cases simple

mutual

theorem occurs_lines (depth : Nat) : ∀ s : Stmt, s.Flat → t ∈ s.types → Occurs (t.text q) (s.lines q depth)
  | define names e, _, member | assign a b, _, member | ret values, _, member | expr e, _, member => by
    have inside := occurs_simpleText (q := q) depth (by simp) member
    rw [lines]
    · exact (inside.append_left _).append_right _
    all_goals nofun
  | ifThen init cond body, flat, member => by
    have tested := Expr.occurs_text (t := t) (q := q) depth cond
    have inner := occurs_block (depth + 1) body flat.2
    -- The closing line is left out first: what remains is few enough appends deep to be searched.
    simp only [lines]
    apply Occurs.append_right
    apply Occurs.append_right
    cases init with
    | none => grind [types,typesOfInit]
    | some s =>
      have before := occurs_simpleText (t := t) (q := q) depth (flat.1 s rfl)
      grind [types,typesOfInit]
  | range _ _ collection body, flat, member => by
    have ranged := Expr.occurs_text (t := t) (q := q) depth collection
    have inner := occurs_block (depth + 1) body flat
    rw [lines]
    apply Occurs.append_right
    apply Occurs.append_right
    grind [types]
  | blank, _, member => by simp at member

theorem occurs_block (depth : Nat) : ∀ body : List Stmt, FlatAll body → t ∈ typesOfAll body →
    Occurs (t.text q) (block q depth body)
  | [], _, member => by simp at member
  | s :: rest, flat, member => by
    have first := occurs_lines depth s flat.1
    have others := occurs_block depth rest flat.2
    grind [block,typesOfAll]

end

theorem simpleText_congr (depth : Nat) {s : Stmt} (same : ∀ t ∈ s.types, t.text q = t.text q') :
    s.simpleText q depth = s.simpleText q' depth := by
  cases s with
  | define names e | expr e => simp only [simpleText,Expr.text_congr depth e same]
  | assign a b =>
    obtain ⟨target,value⟩ := List.forall_mem_append.mp same
    simp only [simpleText,Expr.text_congr depth a target,Expr.text_congr depth b value]
  | ret values =>
    cases values with
    | nil => rfl
    | cons value rest => simp only [simpleText,Expr.texts_congr depth _ same]
  | ifThen | range | blank => rfl

mutual

theorem lines_congr (depth : Nat) : ∀ s : Stmt, (∀ t ∈ s.types, t.text q = t.text q') →
    s.lines q depth = s.lines q' depth
  | define _ _, same | assign _ _, same | ret _, same | expr _, same => by
    simp only [lines,simpleText_congr depth same]
  | ifThen init cond body, same => by
    obtain ⟨head,inner⟩ := List.forall_mem_append.mp same
    obtain ⟨before,tested⟩ := List.forall_mem_append.mp head
    cases init with
    | none => simp only [lines,Expr.text_congr depth cond tested,block_congr (depth + 1) body inner]
    | some s =>
      simp only [lines,simpleText_congr depth before,Expr.text_congr depth cond tested,
        block_congr (depth + 1) body inner]
  | range _ _ collection body, same => by
    obtain ⟨ranged,inner⟩ := List.forall_mem_append.mp same
    simp only [lines,Expr.text_congr depth collection ranged,block_congr (depth + 1) body inner]
  | blank, _ => by simp only [lines]

theorem block_congr (depth : Nat) : ∀ body : List Stmt, (∀ t ∈ typesOfAll body, t.text q = t.text q') →
    block q depth body = block q' depth body
  | [], _ => rfl
  | s :: rest, same => by
    obtain ⟨first,others⟩ := List.forall_mem_append.mp same
    simp only [block,lines_congr depth s first,block_congr depth rest others]

end

end Stmt

/-- The types that are written in a function. -/
def FuncDecl.types (f : FuncDecl) : List TypeRef :=
  f.receiver.toList.map Field.type ++ f.params.map ParamDecl.type ++ Stmt.typesOfAll f.body ++ f.results

theorem occurs_resultsText {results : List TypeRef} (member : t ∈ results) :
    Occurs (t.text q) (resultsText q results) := by
  match results with
  | [single] =>
    rw [List.mem_singleton.mp member]
    exact (Occurs.refl _).append_left _
  | first :: second :: rest =>
    have among := List.mem_map_of_mem (f := TypeRef.text q) member
    exact ((Occurs.commaSeparated among (Occurs.refl _)).append_left _).append_right _

theorem resultsText_congr {results : List TypeRef} (same : ∀ t ∈ results, t.text q = t.text q') :
    resultsText q results = resultsText q' results := by
  have each := List.map_congr_left same
  match results with
  | [] => rfl
  | [t] => rw [resultsText,resultsText,same t List.mem_cons_self]
  | _ :: _ :: _ =>
    unfold resultsText
    dsimp only
    rw [each]

theorem FuncDecl.occurs_text {f : FuncDecl} (flat : Stmt.FlatAll f.body) (member : t ∈ f.types) :
    Occurs (t.text q) (f.text q) := by
  have written := Occurs.refl (t.text q)
  unfold types at member
  rw [List.mem_append,List.mem_append,List.mem_append] at member
  unfold text
  dsimp only
  rcases member with ((receiver | param) | body) | result
  · obtain ⟨r,held,rfl⟩ := List.mem_map.mp receiver
    rw [Option.mem_toList.mp held]
    iterate 6 apply Occurs.append_right
    grind
  · obtain ⟨d,listed,rfl⟩ := List.mem_map.mp param
    have declared : Occurs (d.type.text q) (d.text q) := by grind [ParamDecl.text]
    have among := List.mem_map_of_mem (f := ParamDecl.text q) listed
    iterate 5 apply Occurs.append_right
    exact (declared.commaSeparated among).append_left _
  · exact ((Stmt.occurs_block 1 f.body flat body).append_left _).append_right _
  · have results := occurs_resultsText (q := q) result
    grind

/-- The types that are written in a declaration. -/
def Decl.types : Decl → List TypeRef
  | struct _ fields => fields.map Field.type
  | func f => f.types

def Decl.Flat : Decl → Prop
  | struct _ _ => True
  | func f => Stmt.FlatAll f.body

theorem Decl.uses_eq (d : Decl) : d.uses = d.types.flatMap TypeRef.uses := by
  cases d with
  | struct name fields => simp [uses,types,List.flatMap_map]
  | func f => simp [uses,types,FuncDecl.uses,FuncDecl.types,Stmt.usesOfAll_eq,List.flatMap_map]

/-- What is written in a declaration stands in its text. -/
theorem Decl.occurs_text {d : Decl} (flat : d.Flat) (member : t ∈ d.types) : Occurs (t.text q) (d.text q) := by
  cases d with
  | struct name fields =>
    obtain ⟨field,listed,rfl⟩ := List.mem_map.mp member
    have written := Occurs.refl (field.type.text q)
    refine (Occurs.join (List.mem_map_of_mem listed) ?_).append_left _ |>.append_right _
    exact (written.append_left _).append_right _
  | func f => exact FuncDecl.occurs_text flat member

/-- The text of a declaration depends on aliases through the types that are written in it, and through nothing else. -/
theorem Decl.text_congr {d : Decl} (same : ∀ t ∈ d.types, t.text q = t.text q') : d.text q = d.text q' := by
  cases d with
  | struct name fields =>
    have lines : ∀ f ∈ fields, f.type.text q = f.type.text q' := List.forall_mem_map.mp same
    have each := List.map_congr_left fun f listed => congrArg (fun s : String =>
      "\t" ++ padTo (columnWidth (fields.map Field.name)) f.name ++ " " ++ s ++ "\n") (lines f listed)
    simp only [text,structText,each]
  | func f =>
    obtain ⟨head,results⟩ := List.forall_mem_append.mp same
    obtain ⟨head,body⟩ := List.forall_mem_append.mp head
    obtain ⟨receiver,params⟩ := List.forall_mem_append.mp head
    have params : f.params.map (ParamDecl.text q) = f.params.map (ParamDecl.text q') := by
      apply List.map_congr_left
      intro d listed
      rw [ParamDecl.text,ParamDecl.text,params d.type (List.mem_map_of_mem listed)]
    have results := resultsText_congr results
    simp only [text,FuncDecl.text,params,results,Stmt.block_congr 1 f.body body]
    cases held : f.receiver with
    | none => rfl
    | some r =>
      have received := receiver r.type (by simp [held])
      simp only [received]

end Code
end ProxyGen
