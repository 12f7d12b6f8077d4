import ProxyGen.Code.Imports
import ProxyGen.TypeExpr.Basic

/-!
Declarations of generated source. A type keeps the package that each of its names comes from; how the name
is qualified is settled when a file is printed.
-/
namespace ProxyGen.Code

inductive TypeRef
  /-- A name that needs no package, or a text that is written as it stands. -/
  | name (text : String)
  | qualified (path package name : String)
  | pointer (elem : TypeRef)
  | slice (elem : TypeRef)
  | array (length : Nat) (elem : TypeRef)
  | map (key value : TypeRef)
  | chan (dir : ChanDir) (elem : TypeRef)
  deriving DecidableEq

inductive Expr
  | ident (name : String)
  | nil
  | selector (base : Expr) (field : String)
  | call (func : Expr) (args : List Expr) (spread : Bool)
  | addrOf (operand : Expr)
  | deref (operand : Expr)
  | composite (type : TypeRef) (fields : List (String × Expr))
  | binary (op : String) (lhs rhs : Expr)
  | index (base position : Expr)
  | typeAssert (base : Expr) (type : TypeRef)
  | make (type : TypeRef) (length : Expr)

inductive Stmt
  | define (names : List String) (value : Expr)
  | assign (target value : Expr)
  | ifThen (init : Option Stmt) (cond : Expr) (body : List Stmt)
  | range (key value : String) (collection : Expr) (body : List Stmt)
  | ret (values : List Expr)
  | expr (e : Expr)
  | blank

structure Field where
  name : String
  type : TypeRef

structure ParamDecl where
  name : String
  type : TypeRef
  variadic : Bool

structure FuncDecl where
  receiver : Option Field
  name : String
  params : List ParamDecl
  results : List TypeRef
  body : List Stmt

inductive Decl
  | struct (name : String) (fields : List Field)
  | func (decl : FuncDecl)

structure File where
  package : String
  comment : Option String
  imports : Imports
  decls : List Decl

namespace TypeRef

def pointers : Nat → TypeRef → TypeRef
  | 0, t => t
  | n + 1, t => pointer (pointers n t)

/-- The packages of the names in a type, in the order in which they are written. -/
def uses : TypeRef → List (String × String)
  | name _ => []
  | qualified path package _ => [(path,package)]
  | pointer t | slice t | array _ t | chan _ t => t.uses
  | map k v => k.uses ++ v.uses

end TypeRef

namespace Expr

def isNil (e : Expr) : Expr := binary "==" e nil

def or (a b : Expr) : Expr := binary "||" a b

mutual

def uses : Expr → List (String × String)
  | ident _ | nil => []
  | selector e _ | addrOf e | deref e => e.uses
  | call f args _ => f.uses ++ usesOfAll args
  | composite t fields => t.uses ++ usesOfFields fields
  | binary _ a b | index a b => a.uses ++ b.uses
  | typeAssert e t => e.uses ++ t.uses
  | make t e => t.uses ++ e.uses

def usesOfAll : List Expr → List (String × String)
  | [] => []
  | e :: rest => e.uses ++ usesOfAll rest

def usesOfFields : List (String × Expr) → List (String × String)
  | [] => []
  | field :: rest => field.2.uses ++ usesOfFields rest

end

end Expr

namespace Stmt

mutual

def uses : Stmt → List (String × String)
  | define _ e | expr e => e.uses
  | assign a b => a.uses ++ b.uses
  | ifThen init cond body => usesOfInit init ++ cond.uses ++ usesOfAll body
  | range _ _ collection body => collection.uses ++ usesOfAll body
  | ret values => Expr.usesOfAll values
  | blank => []

def usesOfInit : Option Stmt → List (String × String)
  | none => []
  | some s => s.uses

def usesOfAll : List Stmt → List (String × String)
  | [] => []
  | s :: rest => s.uses ++ usesOfAll rest

end

end Stmt

/-- The packages of the types in a function; the body counts before the results. -/
def FuncDecl.uses (f : FuncDecl) : List (String × String) :=
  f.receiver.toList.flatMap (·.type.uses) ++ f.params.flatMap (·.type.uses) ++
    Stmt.usesOfAll f.body ++ f.results.flatMap TypeRef.uses

def Decl.uses : Decl → List (String × String)
  | struct _ fields => fields.flatMap (·.type.uses)
  | func f => f.uses

/-- A file that imports what its declarations use, in the order of use. -/
def File.ofDecls (package : String) (comment : Option String) (decls : List Decl) : File :=
  ⟨package,comment,.ofUses (decls.flatMap Decl.uses),decls⟩

end ProxyGen.Code
