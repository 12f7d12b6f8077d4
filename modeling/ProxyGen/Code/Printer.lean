import ProxyGen.Code.Tree
import ProxyGen.Text.Quoted
import ProxyGen.Text.Split
import ProxyGen.Universe.Basic

/-!
Printing source files in the canonical layout: tabs for indentation, and columns for the types of struct
fields and the values of composite literals. A column is as wide as its longest entry in bytes, while
the space that is added counts characters.
-/
namespace ProxyGen.Code

/-- How names of a package are qualified, by its path and name. -/
abbrev Qualifier := String → String → String

def commaSeparated (texts : List String) : String := String.intercalate ", " texts

def spaces (n : Nat) : String := String.ofList (List.replicate n ' ')

def tabs (n : Nat) : String := String.ofList (List.replicate n '\t')

def padTo (width : Nat) (s : String) : String := s ++ spaces (width - s.length)

def columnWidth (texts : List String) : Nat := (texts.map String.utf8ByteSize).foldl max 0

def TypeRef.text (q : Qualifier) : TypeRef → String
  | name text => text
  | qualified path package member => q path package ++ "." ++ member
  | pointer t => "*" ++ t.text q
  | slice t => "[]" ++ t.text q
  | array n t => "[" ++ toString n ++ "]" ++ t.text q
  | map k v => "map[" ++ k.text q ++ "]" ++ v.text q
  | chan d t => d.text ++ t.text q

namespace Expr

def isBinary : Expr → Bool
  | binary _ _ _ => true
  | _ => false

def isUnary : Expr → Bool
  | addrOf _ | deref _ => true
  | _ => false

def parenthesize (needed : Bool) (text : String) : String :=
  if needed then "(" ++ text ++ ")" else text

mutual

/-- The text of an expression in a statement of the given depth. What is selected from, called or indexed
stands in parentheses when it is unary or binary, an operand of `*` and `&` only when it is binary. -/
def text (q : Qualifier) (depth : Nat) : Expr → String
  | ident name => name
  | nil => "nil"
  | selector e field =>
    parenthesize (e.isBinary || e.isUnary) (e.text q depth) ++ "." ++ field
  | call f args spread =>
    parenthesize (f.isBinary || f.isUnary) (f.text q depth) ++ "(" ++
      commaSeparated (texts q depth args) ++ (if spread then "..." else "") ++ ")"
  | addrOf e => "&" ++ parenthesize e.isBinary (e.text q depth)
  | deref e => "*" ++ parenthesize e.isBinary (e.text q depth)
  | composite t [] => t.text q ++ "\x7b\x7d"
  | composite t (field :: fields) =>
    let width := columnWidth ((field :: fields).map fun f => f.1 ++ ":")
    t.text q ++ "\x7b\n" ++ fieldLines q (depth + 1) width (field :: fields) ++ tabs depth ++ "\x7d"
  | binary op a b => a.text q depth ++ " " ++ op ++ " " ++ b.text q depth
  | index e i =>
    parenthesize (e.isBinary || e.isUnary) (e.text q depth) ++ "[" ++ i.text q depth ++ "]"
  | typeAssert e t =>
    parenthesize (e.isBinary || e.isUnary) (e.text q depth) ++ ".(" ++ t.text q ++ ")"
  | make t e => "make(" ++ t.text q ++ ", " ++ e.text q depth ++ ")"

def texts (q : Qualifier) (depth : Nat) : List Expr → List String
  | [] => []
  | e :: rest => e.text q depth :: texts q depth rest

def fieldLines (q : Qualifier) (depth width : Nat) : List (String × Expr) → String
  | [] => ""
  | field :: rest =>
    tabs depth ++ padTo width (field.1 ++ ":") ++ " " ++ field.2.text q depth ++ ",\n" ++
      fieldLines q depth width rest

end

end Expr

namespace Stmt

/-- A statement that fits in front of a condition; compound ones do not. -/
def simpleText (q : Qualifier) (depth : Nat) : Stmt → String
  | define names e => commaSeparated names ++ " := " ++ e.text q depth
  | assign a b => a.text q depth ++ " = " ++ b.text q depth
  | ret [] => "return"
  | ret values => "return " ++ commaSeparated (Expr.texts q depth values)
  | expr e => e.text q depth
  | ifThen _ _ _ | range _ _ _ _ | blank => ""

mutual

def lines (q : Qualifier) (depth : Nat) : Stmt → String
  | blank => "\n"
  | ifThen init cond body =>
    let before := match init with
      | some s => s.simpleText q depth ++ "; "
      | none => ""
    tabs depth ++ "if " ++ before ++ cond.text q depth ++ " \x7b\n" ++ block q (depth + 1) body ++
      tabs depth ++ "\x7d\n"
  | range key value collection body =>
    tabs depth ++ "for " ++ key ++ ", " ++ value ++ " := range " ++ collection.text q depth ++
      " \x7b\n" ++ block q (depth + 1) body ++ tabs depth ++ "\x7d\n"
  | s => tabs depth ++ s.simpleText q depth ++ "\n"

def block (q : Qualifier) (depth : Nat) : List Stmt → String
  | [] => ""
  | s :: rest => s.lines q depth ++ block q depth rest

end

end Stmt

def ParamDecl.text (q : Qualifier) (p : ParamDecl) : String :=
  p.name ++ (if p.variadic then " ..." else " ") ++ p.type.text q

def resultsText (q : Qualifier) : List TypeRef → String
  | [] => ""
  | [t] => " " ++ t.text q
  | ts => " (" ++ commaSeparated (ts.map (·.text q)) ++ ")"

def FuncDecl.text (q : Qualifier) (f : FuncDecl) : String :=
  let receiver := match f.receiver with
    | some r => "(" ++ r.name ++ " " ++ r.type.text q ++ ") "
    | none => ""
  "func " ++ receiver ++ f.name ++ "(" ++ commaSeparated (f.params.map (·.text q)) ++ ")" ++
    resultsText q f.results ++ " \x7b\n" ++ Stmt.block q 1 f.body ++ "\x7d\n"

def structText (q : Qualifier) (name : String) (fields : List Field) : String :=
  let width := columnWidth (fields.map (·.name))
  let line (f : Field) : String := "\t" ++ padTo width f.name ++ " " ++ f.type.text q ++ "\n"
  "type " ++ name ++ " struct \x7b\n" ++ String.join (fields.map line) ++ "\x7d\n"

def Decl.text (q : Qualifier) : Decl → String
  | struct name fields => structText q name fields
  | func f => f.text q

/-- An import; the alias is left out where it is the last element of the path. -/
def importSpec (path shortName : String) : String :=
  if lastElement path == shortName then Text.quote path else shortName ++ " " ++ Text.quote path

def Imports.text (i : Imports) : String :=
  match i.sorted with
  | [] => ""
  | [(path,shortName)] => "\nimport " ++ importSpec path shortName ++ "\n"
  | specs =>
    "\nimport (\n" ++
      String.join (specs.map fun (path,shortName) => "\t" ++ importSpec path shortName ++ "\n") ++
      ")\n"

def commentText (comment : Option String) : String :=
  match comment with
  | none => ""
  | some c =>
    String.join ((Text.lines c.toList).map fun line => "// " ++ String.ofList line ++ "\n")

def File.text (f : File) : String :=
  commentText f.comment ++ "package " ++ f.package ++ "\n" ++ f.imports.text ++
    String.join (f.decls.map fun d => "\n" ++ d.text f.imports.qualifier)

end ProxyGen.Code
